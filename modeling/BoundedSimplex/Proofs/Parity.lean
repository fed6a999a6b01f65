import BoundedSimplex.Proofs.Folding
import BoundedSimplex.Proofs.Sessions

/-!
# Both Engines Answer Alike

A caller cannot tell the engine on a device from the one in the process, unless
he can tell their sums apart.

Both are given the same dimensions, the same configuration and the same
operations, and each is asked what it answers in the end. The only place where
the engines may come to different numbers is the value of a row: one adds the
products from left to right, the other one by workgroups, as a tree. In
floating point the two need not be the same. If they are, in every row and
after every exchange of the session, then so are all answers, the errors among
them, and if the one does not end then neither does the other.

That much can be said of devices with an engine that can add up its rows. There is
none on a device that runs no workgroup, nor on one whose chunk does not fit a word,
and one whose rows are too long for a word stops at the first of them.

That the sums agree is a condition on the run in the process alone. It can be
checked there, without a device: `Sequential.SumsAgree` is decidable, and
`Solver.visited` lists the moments at which rows are added up.

## Main definitions

* `Sequential.serve`, `Parallel.serve`: A session on a solver that is made for
  it.
* `Sequential.SumsAgree`: Both ways to add up the rows come to the same.
* `Solver.visited`: The moments after an exchange, as a list.

## Theorems

* `Sequential.sumsMatchAt_of_agree`: The condition on the tables is one on the
  board.
* `parity_of_sums`: Both engines answer alike.
* `not_parity_unmade`: They do not where there is no engine on the device, or rows are too
  long for it.
-/

namespace BoundedSimplex

/-! ### Sessions on new solvers -/

/-- A session on a solver in the process. -/
def Sequential.serve {σ : Type} (maxRows numCols : Nat) (config : Config Binary32)
    (ops : List (Operation Binary32)) : Exec σ (List (Except Error (Answer Binary32))) := do
  let s ← Solver.sequential maxRows numCols config
  let (answers, _) ← Exec.aside s (Solver.session ops)
  pure answers

/-- A session on a solver on a device. -/
def Parallel.serve (maxRows numCols : Nat) (config : Config Binary32)
    (ops : List (Operation Binary32)) : Exec Device (List (Except Error (Answer Binary32))) := do
  let s ← Solver.parallel maxRows numCols config
  let d ← Exec.state
  let (answers, s) ← Exec.aside (s.attach d) (Solver.session ops)
  Exec.put s.device
  pure answers

/-- What follows an operation on a state of its own, if it only passes on the
    result. -/
theorem Exec.outcome_aside {σ τ α : Type} {act : Exec τ α} {s : τ} {f : α × τ → Exec σ α}
    (hf : ∀ a x u, outcome (f (a, x) u) = .ok a) (t : Traced σ) :
    outcome ((Exec.aside s act >>= f) t) = outcome (act ⟨s, t.journal⟩) := by
  simp only [Bind.bind, EStateM.bind, Exec.aside]
  cases act ⟨s, t.journal⟩ with
  | ok a u => exact hf a u.state _
  | error e u => rfl

section Serve

variable {maxRows numCols : Nat} {config : Config Binary32} {ops : List (Operation Binary32)}

/-- What makes no sense is refused before an engine is made. -/
theorem outcome_serve_of_error {σ : Type} {e : Error} (t : Traced σ) (u : Traced Device)
    (h : Solver.checkInput maxRows numCols config = .error e) :
    Exec.outcome (Sequential.serve maxRows numCols config ops t) = .error (.error e) ∧
      Exec.outcome (Parallel.serve maxRows numCols config ops u) = .error (.error e) := by
  unfold Sequential.serve Parallel.serve Solver.sequential Solver.parallel
  rw [h]
  exact ⟨rfl, rfl⟩

/-- The session is the one of a solver that has seen no constraint. -/
theorem Sequential.outcome_serve {σ : Type} (ops : List (Operation Binary32)) (t : Traced σ)
    (h : Solver.checkInput maxRows numCols config = .ok ()) :
    ∃ s u, Solver.sequential maxRows numCols config t = .ok s u ∧
      s = Solver.fresh maxRows numCols config (initial maxRows numCols config.tolerance) ∧
      Exec.outcome (serve maxRows numCols config ops t)
        = Exec.outcome (Solver.session ops ⟨s, u.journal⟩) := by
  have hmake : (Solver.sequential maxRows numCols config : Exec σ _).Gives t.state fun s _ =>
      s = Solver.fresh maxRows numCols config (initial maxRows numCols config.tolerance) := by
    refine (Exec.Yields.check h).gives ?_
    exact Exec.Yields.emit.gives (Exec.Gives.pure rfl)
  rcases hmake t.journal with ⟨s, x, j, hrun, hs⟩
  refine ⟨s, ⟨x, j⟩, hrun, hs, ?_⟩
  unfold serve
  rw [Exec.bind_ok hrun]
  exact Exec.outcome_aside (fun _ _ _ => rfl) _

/-- The session is the one of a solver whose device is ready, if it can run a workgroup
    and its chunks fit a word. -/
theorem Parallel.outcome_serve {host : HostDevice} (ops : List (Operation Binary32)) (j : Journal)
    (h : Solver.checkInput maxRows numCols config = .ok ())
    (hlimit : host.info.maxWorkgroupSize ≠ 0)
    (hchunk : (Geometry.ofDevice host.info config.maxWorkgroupSize).chunk < UInt32.size) :
    ∃ s d j', s.workspace.engine.geometry = .ofDevice host.info config.maxWorkgroupSize ∧
      Solver.Describes (Ready s.workspace.engine.geometry.workgroup) (s.attach d) (s.attach d)
        (.blank maxRows numCols) ∧
      (∃ engine, s = Solver.fresh maxRows numCols config engine) ∧
      Exec.outcome (serve maxRows numCols config ops ⟨.toHost host, j⟩)
        = Exec.outcome (Solver.session ops ⟨s.attach d, j'⟩) := by
  rcases parallel_gives h (Device.serves_toHost host) rfl hlimit hchunk j with
    ⟨s, d, j', hrun, hgeometry, hdesc, -, hfresh⟩
  refine ⟨s, d, j', hgeometry, hdesc, hfresh, ?_⟩
  unfold serve
  rw [Exec.bind_ok hrun]
  exact Exec.outcome_aside (fun _ _ _ => rfl) _

end Serve

/-! ### The stage of new solvers -/

/-- A problem without constraints has room for some. -/
theorem Problem.hasSize_blank {α : Type} [Scalar α] (maxRows numCols : Nat) :
    (Problem.blank maxRows numCols : Problem α).HasSize maxRows numCols :=
  ⟨rfl, rfl, Nat.zero_le _⟩

/-- Two solvers that have seen no constraint, on engines that are ready. -/
theorem Solver.stage_fresh {β β' α : Type} [Scalar α] [Engine β α] [Engine β' α]
    {R : Engine.Reading β α} {R' : Engine.Reading β' α} {maxRows numCols : Nat}
    {config : Config α} {e : β} {e' : β'} {s : Solver β α} {s' : Solver β' α}
    (hs : s = fresh maxRows numCols config e) (hs' : s' = fresh maxRows numCols config e')
    (h : Describes R.Ready s s (.blank maxRows numCols))
    (h' : Describes R'.Ready s' s' (.blank maxRows numCols)) :
    Stage R R' maxRows numCols config s s' := by
  subst hs hs'
  exact .building (f := ⟨config, .building, #[], false, #[]⟩) (Problem.hasSize_blank _ _) rfl rfl
    rfl ⟨h.ready, h'.ready, rfl, rfl⟩

/-! ### Sums that agree -/

namespace Sequential

variable {w : Workspace (Sequential Binary32) Binary32} {b : Board Binary32} {width r : Nat}

/-- The value of a column's variable times its coefficient, and zero beyond the
    last column. -/
def product (w : Workspace (Sequential Binary32) Binary32) (row col : Nat) : Binary32 :=
  (do
    let var ← w.basis.colVar? col
    let v ← w.engine.bounds.entries[var]?
    let coeff ← w.tableau.cell? (row * w.tableau.numCols + col)
    some (v.value * coeff)).getD 0

/-- In every row that is taken the sum from left to right is also the one by
    workgroups of a width. -/
def SumsAgree (width : Nat) (w : Workspace (Sequential Binary32) Binary32) : Prop :=
  ∀ r < w.tableau.numRows, rowValue w r = some (groupedSum width w.tableau.numCols (product w r))

instance (width : Nat) (w : Workspace (Sequential Binary32) Binary32) :
    Decidable (SumsAgree width w) :=
  inferInstanceAs (Decidable (∀ r < _, _))

theorem product_eq (h : Shows w b) (hv : b.Valid) (hr : r < b.maxRows) :
    product w r = b.products r := by
  funext c
  unfold product Board.products
  -- Past the last column the basis names no variable, and both products are zero.
  by_cases hc : c < b.numCols
  · have hcell := h.tableau.coeff r (by rw [h.tableau.maxRows]; exact hr) c
      (by rw [h.tableau.numCols]; exact hc)
    rw [Tableau.coeff?_eq_cell? (by rw [h.tableau.numCols]; exact hc)] at hcell
    rw [if_pos hc, h.basis, hv.basis.colVar?_eq hc]
    simp only [Option.bind_eq_bind, Option.bind_some, h.bounds.entry _ (hv.basis.col c hc).1, hcell,
      Option.getD_some, Board.entry]
  · have hnone : b.basis.colVar? c = none := by
      rw [Basis.colVar?, Array.getElem?_eq_none (by rw [hv.basis.size_colVar]; omega)]
    rw [if_neg hc, h.basis, hnone]
    rfl

/-- The condition on the tables is one on the board. A caller can check the first, and the
    comparison of the engines needs the second. -/
theorem sumsMatchAt_of_agree (h : SumsAgree width w) :
    Solver.SumsMatchAt reading (Parallel.reading width) w := by
  intro b hv hshows r hr
  have hrm : r < b.maxRows := Nat.lt_of_lt_of_le hr hv.numRows_le
  have hagree := h r (by rw [hshows.tableau.numRows]; exact hr)
  rw [rowValue_eq hshows.holds hv.basis hrm, product_eq hshows hv hrm, hshows.tableau.numCols,
    Option.some.injEq] at hagree
  exact hagree.symm

end Sequential

/-! ### The moments after an exchange -/

namespace Solver

variable {β α : Type} [Engine β α] {t u v : Traced (Solver β α)} {n : Nat}

/-- The moment of a search after `n` exchanges, if it comes that far. -/
def moment? (t : Traced (Solver β α)) : Nat → Option (Traced (Solver β α))
  | 0 =>
    if t.state.phase = .building then
      match opening t with
      | .ok _ u => some u
      | .error _ _ => none
    else none
  | n + 1 => (moment? t n).bind fun u =>
    match iterate n u with
    | .ok none u' => some u'
    | _ => none

theorem reaches_iff_moment : Reaches t n u ↔ moment? t n = some u := by
  constructor
  · intro h
    induction h with
    | start hphase hopen => simp only [moment?, hphase, if_true, hopen]
    | next _ hit ih => simp only [moment?, ih, Option.bind_some, hit]
  · intro h
    -- Conversely by induction on the moment: the search goes on to the next one only through an
    -- iteration without a verdict.
    induction n generalizing u with
    | zero =>
        unfold moment? at h
        by_cases hphase : t.state.phase = .building
        · rw [if_pos hphase] at h
          cases hopen : opening t with
          | ok x w =>
              rw [hopen] at h
              cases h
              exact .start hphase hopen
          | error e w =>
              rw [hopen] at h
              cases h
        · rw [if_neg hphase] at h
          cases h
    | succ n ih =>
        rcases Option.bind_eq_some_iff.mp h with ⟨w, hw, hit⟩
        cases hrun : iterate n w with
        | error e x =>
            rw [hrun] at hit
            cases hit
        | ok r x =>
            rw [hrun] at hit
            cases r with
            | some sat => cases hit
            | none =>
                cases hit
                exact (ih hw).next hrun

variable [Scalar α]

/-- The moments after each exchange of an operation. -/
def exchangesOf (t : Traced (Solver β α)) : Operation α → List (Traced (Solver β α))
  | .solve fuel => (List.range fuel).filterMap fun n => moment? t (n + 1)
  | _ => []

/-- The moments after each exchange of a session. It computes them, so the condition on the
    sums can be decided for a given session. -/
def visited : List (Operation α) → Traced (Solver β α) → List (Traced (Solver β α))
  | [], _ => []
  | o :: rest, t =>
    exchangesOf t o ++
      match answer o t with
      | .ok _ u => visited rest u
      | .error _ _ => []

/-- The list has all these moments, and no others. -/
theorem mem_visited_iff {ops : List (Operation α)} :
    v ∈ visited ops t ↔ ∃ n, Visits ops t (n + 1) v := by
  -- Induction on the operations: a moment belongs to the search that comes first, or to the rest
  -- of the session.
  induction ops generalizing t with
  | nil =>
      simp only [visited, List.not_mem_nil, false_iff, not_exists]
      intro n hvisit
      cases hvisit
  | cons o rest ih =>
      rw [visited, List.mem_append]
      constructor
      · rintro (hhere | hlater)
        · cases o with
          | solve fuel =>
              rcases List.mem_filterMap.mp hhere with ⟨n, hn, hmoment⟩
              exact ⟨n, .here (List.mem_range.mp hn) (reaches_iff_moment.mpr hmoment)⟩
          | _ => cases hhere
        · cases hrun : answer o t with
          | ok a u =>
              rw [hrun] at hlater
              rcases ih.mp hlater with ⟨n, hvisit⟩
              exact ⟨n, .later hrun hvisit⟩
          | error e u =>
              rw [hrun] at hlater
              cases hlater
      · rintro ⟨n, hvisit⟩
        cases hvisit with
        | here hn hreach =>
            exact .inl (List.mem_filterMap.mpr
              ⟨n, List.mem_range.mpr hn, reaches_iff_moment.mp hreach⟩)
        | later hrun hvisit =>
            refine .inr ?_
            rw [hrun]
            exact ih.mpr ⟨n, hvisit⟩

end Solver

/-! ### The same answers -/

/-- Both engines answer alike, if the sums of the rows agree after every
    exchange of the session. The device has to run a workgroup at all, and what the
    engine counts in words has to fit them. Otherwise there is no engine on it, or one
    that gives up at its first sum. -/
theorem parity_of_sums {σ : Type} (maxRows numCols : Nat) (config : Config Binary32)
    (host : HostDevice) (ops : List (Operation Binary32)) (t : Traced σ) (j : Journal)
    (hlimit : host.info.maxWorkgroupSize ≠ 0)
    (hwords : (Geometry.ofDevice host.info config.maxWorkgroupSize).InWords numCols)
    (hwidth : 2 ≤ (Geometry.ofDevice host.info config.maxWorkgroupSize).workgroup ∨ numCols = 1)
    (hsums : ∀ s u, Solver.sequential maxRows numCols config t = .ok s u → ∀ n v,
      Solver.Visits ops ⟨s, u.journal⟩ (n + 1) v →
      Sequential.SumsAgree (Geometry.ofDevice host.info config.maxWorkgroupSize).workgroup
        v.state.workspace) :
    Exec.outcome (Parallel.serve maxRows numCols config ops ⟨.toHost host, j⟩)
      = Exec.outcome (Sequential.serve maxRows numCols config ops t) := by
  cases hinput : Solver.checkInput maxRows numCols config with
  | error e =>
      rcases outcome_serve_of_error t ⟨.toHost host, j⟩ hinput with ⟨hseq, hpar⟩
      rw [hseq, hpar]
  | ok _ =>
      have hsize := (Solver.checkDimensions_eq_ok (Solver.checkInput_eq_ok hinput).1).2.2
      rcases Sequential.outcome_serve ops t hinput with ⟨s, u, hmake, rfl, hseq⟩
      rcases Parallel.outcome_serve ops j hinput hlimit hwords.chunk with
        ⟨s', d, j', hgeometry, hdesc, ⟨engine, rfl⟩, hpar⟩
      have hpos : 0 < (Geometry.ofDevice host.info config.maxWorkgroupSize).workgroup :=
        Nat.two_pow_pos _
      rw [hgeometry] at hdesc
      -- Of the device only the geometry is left, and of the geometry only its width is used by
      -- the engine.
      generalize (Geometry.ofDevice host.info config.maxWorkgroupSize) = g
        at hdesc hwords hwidth hsums hpos
      -- Both solvers show the blank board, and each way to add up comes with an engine that
      -- follows the search.
      have hstage : Solver.Stage Sequential.reading (Parallel.reading g.workgroup) maxRows numCols
          config _ _ := Solver.stage_fresh rfl rfl (Sequential.describes_fresh hsize) hdesc
      -- Neither engine meets an obstacle: the process has none, and the words and the width
      -- exclude those of a device.
      have hfree : (Parallel.reading g.workgroup).obstacle numCols
          = (Sequential.reading (α := Binary32)).obstacle numCols :=
        sumObstacle_eq_none hpos hwords hwidth
      rw [hseq, hpar]
      exact (Solver.session_alike hfree ops hstage fun n v hv =>
        Sequential.sumsMatchAt_of_agree (hsums _ _ hmake n v hv)).outcome_eq.symm

/-- A session with a search that makes one exchange: the sum of two variables
    has to be at least three. -/
def raisingSession : List (Operation Binary32) :=
  [.build (.constraint #[⟨0x3f800000⟩, ⟨0x3f800000⟩]),
    .build (.bounds 2 (.lower (some ⟨0x40400000⟩))), .solve 2, .solution, .entry 0 1, .render,
    .account]

/-- Workgroups of four add up the row of this exchange to the same, and so the
    answers are the same. -/
theorem parity_of_sums_raising :
    (∃ s u n v, Solver.sequential 1 2 Config.standard (⟨(), #[]⟩ : Traced Unit) = .ok s u ∧
      Solver.Visits raisingSession ⟨s, u.journal⟩ (n + 1) v) ∧
    Exec.outcome (Parallel.serve 1 2 Config.standard raisingSession
        ⟨.toHost (.idle ⟨4, 1⟩), #[]⟩)
      = Exec.outcome (Sequential.serve 1 2 Config.standard raisingSession
        (⟨(), #[]⟩ : Traced Unit)) := by
  -- The list of the moments is evaluated together with the test of the sums at each of them, and
  -- there is one.
  have hrun : Exec.endsWith (Solver.sequential 1 2 Config.standard (⟨(), #[]⟩ : Traced Unit))
      (fun s u => ((Solver.visited raisingSession ⟨s, u.journal⟩).map fun v =>
        decide (Sequential.SumsAgree 4 v.state.workspace)) == [true]) = true := by decide +kernel
  rcases Exec.exists_of_endsWith hrun with ⟨s, u, hmake, htest⟩
  have hmoment : ∃ v, Solver.visited raisingSession ⟨s, u.journal⟩ = [v] ∧
      Sequential.SumsAgree 4 v.state.workspace := by
    rcases List.map_eq_singleton_iff.mp (beq_iff_eq.mp htest) with ⟨v, hv, hagree⟩
    exact ⟨v, hv, of_decide_eq_true hagree⟩
  rcases hmoment with ⟨v, hvisited, hagree⟩
  have hwidth : (Geometry.ofDevice (HostDevice.idle ⟨4, 1⟩).info
      Config.standard.maxWorkgroupSize).workgroup = 4 := by decide +kernel
  constructor
  · have hmem : v ∈ Solver.visited raisingSession ⟨s, u.journal⟩ := by
      rw [hvisited]
      exact List.mem_singleton.mpr rfl
    rcases Solver.mem_visited_iff.mp hmem with ⟨n, hvisit⟩
    exact ⟨s, u, n, v, hmake, hvisit⟩
  · refine parity_of_sums 1 2 Config.standard (.idle ⟨4, 1⟩) raisingSession _ _ (by decide)
      (by decide +kernel) (.inl (by rw [hwidth]; decide)) fun s' u' hmake' n v' hvisit => ?_
    -- Making a solver is a function, so the solver of the hypothesis is the evaluated one.
    have hsame : (EStateM.Result.ok s' u' : EStateM.Result Stop (Traced Unit) _) = .ok s u :=
      hmake'.symm.trans hmake
    cases hsame
    have hmem := Solver.mem_visited_iff.mpr ⟨n, hvisit⟩
    rw [hvisited, List.mem_singleton] at hmem
    rw [hwidth, hmem]
    exact hagree

/-- Otherwise they need not. On a device that runs no workgroup, or one with so many units
    that a chunk does not fit a word, there is no engine to ask, while the one in the
    process is made and has nothing to do. And a row that is too long stops the engine on a
    device, while the one in the process adds it up like any other. -/
theorem not_parity_unmade :
    (¬ ∀ (maxRows numCols : Nat) (config : Config Binary32) (host : HostDevice)
      (ops : List (Operation Binary32)) (t : Traced Unit) (j : Journal),
      Solver.checkInput maxRows numCols config = .ok () →
      2 ≤ (Geometry.ofDevice host.info config.maxWorkgroupSize).workgroup ∨ numCols = 1 →
      (∀ s u, Solver.sequential maxRows numCols config t = .ok s u → ∀ n v,
        Solver.Visits ops ⟨s, u.journal⟩ (n + 1) v →
        Sequential.SumsAgree (Geometry.ofDevice host.info config.maxWorkgroupSize).workgroup
          v.state.workspace) →
      Exec.outcome (Parallel.serve maxRows numCols config ops ⟨.toHost host, j⟩)
        = Exec.outcome (Sequential.serve maxRows numCols config ops t)) ∧
    Exec.outcome (Parallel.serve 1 1 Config.standard []
        ⟨.toHost (.idle ⟨256, 2 ^ 24⟩), #[]⟩) = .error .overflow ∧
    Exec.outcome (Sequential.serve 1 1 Config.standard [] (⟨(), #[]⟩ : Traced Unit)) = .ok [] ∧
    ∃ (w : Parallel.Desk) (s : Workspace (Sequential Binary32) Binary32),
      Parallel.Shows 256 w (.zeroRow (2 ^ 32 - 2)) ∧ Sequential.Shows s (.zeroRow (2 ^ 32 - 2)) ∧
      (Engine.updateAssignment : Exec Parallel.Desk Unit).Stops w .overflow (fun _ => True) ∧
      (Engine.updateAssignment : Exec (Workspace (Sequential Binary32) Binary32) Unit).Gives s
        fun _ s' => Sequential.Shows s' ((Board.zeroRow (2 ^ 32 - 2)).recomputed leftSum) := by
  -- The first two parts are short runs. The third one cannot be evaluated and is proved instead.
  have hnarrow : Exec.stopsWith (Parallel.serve 1 1 Config.standard []
      ⟨.toHost (.idle ⟨0, 1⟩), #[]⟩) (fun _ _ => true) = true := by decide +kernel
  have hwide : Exec.stopsWith (Parallel.serve 1 1 Config.standard []
      ⟨.toHost (.idle ⟨256, 2 ^ 24⟩), #[]⟩) (fun e _ => decide (e = .overflow)) = true := by
    decide +kernel
  have hprocess : Exec.endsWith (Sequential.serve 1 1 Config.standard []
      (⟨(), #[]⟩ : Traced Unit)) (fun answers _ => answers.isEmpty) = true := by decide +kernel
  rcases Exec.exists_of_stopsWith hnarrow with ⟨e, u, hnarrow, -⟩
  rcases Exec.exists_of_stopsWith hwide with ⟨e', u', hwide, he'⟩
  rcases Exec.exists_of_endsWith hprocess with ⟨answers, t, hprocess, hempty⟩
  refine ⟨fun h => ?_, ?_, ?_, ?_⟩
  · have hsame := h 1 1 Config.standard (.idle ⟨0, 1⟩) [] ⟨(), #[]⟩ #[] (by decide +kernel)
      (.inr rfl) fun _ _ _ _ _ hvisit => nomatch hvisit
    rw [hnarrow, hprocess] at hsame
    cases hsame
  · rw [hwide, of_decide_eq_true he']
    rfl
  · rw [hprocess, List.isEmpty_iff.mp hempty]
    rfl
  · rcases Parallel.exists_overflow with ⟨w, -, hw, hstops⟩
    have hs := Sequential.shows_ofBoard (Board.zeroRow (2 ^ 32 - 2))
    exact ⟨w, _, hw, hs, hstops,
      Sequential.follows.update _ _ hs (Board.valid_zeroRow (2 ^ 32 - 2)) rfl⟩

end BoundedSimplex
