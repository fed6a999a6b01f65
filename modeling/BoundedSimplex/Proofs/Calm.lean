import BoundedSimplex.Proofs.Steps

/-!
# Devices That Refuse Nothing

What a refusal does not change.

Until a device refuses a request it does what it would do if it refused nothing.
So a search on it goes as the search on the device without the refusal goes, as
far as it comes, and everything that is known of that one is known of this one up
to there. One operation has to be looked at more closely. Where a sum does not
end, the engine looks how far away the refusal is, and repeats a reduction until
then or for ever; but either way nothing comes after it.

A launch that goes beyond the end of a buffer would leave that buffer detached.
That it does not happen is known of searches on a device that refuses nothing, and
so it is known of all.

## Main definitions

* `Device.calm`: The device without what it refuses.
* `Device.Cuts`: The stops that depend on the refusal.

## Theorems

* `Device.parallel_calm`: A solver would have been made without the refusal.
* `Parallel.carries_of_moves`, `Solver.carries_of_moves`: The refusal makes no
  difference up to where it stops an operation.
* `Parallel.updateAssignment_carriesAt`: Nor does it where sums do not end.
* `Solver.Reaches.calm`: The moments of the search without it.
* `Solver.solve_ne_outOfRange`: No launch goes beyond the end of a buffer.
-/

namespace BoundedSimplex

open Exec

namespace Device

/-- The device, without what it refuses. Everything it was asked so far is still counted. -/
def calm (d : Device) : Device := { d with refuse := none }

/-- The stops that depend on what is refused. A question that stops in any other way does so
    on every gateway. -/
inductive Cuts : Stop → Prop where
  | refused (error : Error) : Cuts (.error error)
  | endless : Cuts .endless

theorem ask_carries (r : Request) : (ask r).Carries (fun _ => True) Cuts calm := by
  intro t _
  have hcalm : ask r (t.map calm) = .ok () (Traced.map calm
      ⟨{ t.state with tally := t.state.tally.add r }, t.journal⟩) := rfl
  unfold CarriesAt
  cases hrefusal : t.state.refusal? r with
  | some e =>
      rw [ask_refused hrefusal]
      exact .inl (.refused e)
  | none =>
      rw [ask_served hrefusal]
      exact ⟨hcalm, trivial⟩

theorem onHost_carries {α : Type} {E : Stop → Prop} (act : Exec HostDevice α) :
    (onHost act).Carries (fun _ => True) E calm :=
  (Carries.refl act).focus (fun _ => rfl) (fun _ _ => rfl) fun _ _ h => h

/-- A request is refused, or the refusal makes no difference to it. The two ways out are
    what `Carries` allows: a cut, or the same run on the device that is calm. -/
theorem asks_carries {p : Parallel} {R : Right → Prop}
    (hlook : R .look → sumsEnd p.geometry.workgroup p.numCols = true) {α : Type}
    {act : Exec Device α} (h : p.Asks R act) : act.Carries (fun _ => True) Cuts calm := by
  cases h with
  | setArg e i a _ _ => exact (ask_carries _).bind fun _ => onHost_carries _
  | launch e size _ =>
      exact (ask_carries _).bind fun _ =>
        Carries.bind (.update (fun _ _ => rfl) fun _ h => h) fun _ => onHost_carries _
  | write s offset data _ =>
      exact (ask_carries _).bind fun _ => (onHost_carries _).bind fun _ =>
        .update (fun _ _ => rfl) fun _ h => h
  | read s offset count =>
      exact (ask_carries _).bind fun _ => (onHost_carries _).bind fun _ =>
        Carries.bind (.update (fun _ _ => rfl) fun _ h => h) fun _ => .pure _
  -- A loop that looks at its sums for ever is the one thing that no refusal interrupts, and the
  -- sums of this width end.
  | look hmay hvain =>
      rw [hlook hmay] at hvain
      cases hvain

/-! ### Making an engine -/

/-- A request that was not refused is what it would have been. -/
theorem ask_passes (r : Request) : (ask r).Carries (fun _ => True) (fun _ => True) calm :=
  (ask_carries r).mono_stop fun _ _ => trivial

theorem allocate_passes (bytes : Nat) :
    (allocate bytes).Carries (fun _ => True) (fun _ => True) calm :=
  (ask_passes _).bind fun _ => (onHost_carries _).bind fun _ =>
    Carries.bind (.update (fun _ _ => rfl) fun _ h => h) fun _ => .pure _

theorem compile_passes (source : KernelSource) (entry : String) :
    (compile source entry).Carries (fun _ => True) (fun _ => True) calm :=
  (ask_passes _).bind fun _ => onHost_carries _

theorem write_passes (id offset : Nat) (data : Words) :
    (write id offset data).Carries (fun _ => True) (fun _ => True) calm :=
  (ask_passes _).bind fun _ => (onHost_carries _).bind fun _ =>
    .update (fun _ _ => rfl) fun _ h => h

theorem zeroed_passes (n : Nat) : (Buffer.zeroed n).Carries (fun _ => True) (fun _ => True) calm :=
  (allocate_passes _).bind fun _ => .pure _

theorem ofWords_passes (ws : Words) :
    (Buffer.ofWords ws).Carries (fun _ => True) (fun _ => True) calm := by
  unfold Buffer.ofWords
  split
  · exact zeroed_passes 0
  · exact (allocate_passes _).bind fun _ => (write_passes _ _ _).bind fun _ => .pure _

theorem allocateBounds_passes (numBasic numNonbasic : Nat) :
    (Bounds.Resident.allocate numBasic numNonbasic).Carries (fun _ => True) (fun _ => True) calm :=
  (zeroed_passes _).bind fun _ => .guarded <| (zeroed_passes _).bind fun _ => .guarded <|
    (ofWords_passes _).bind fun _ => .guarded <| (zeroed_passes _).bind fun _ => .guarded <|
    (ofWords_passes _).bind fun _ => .pure _

theorem compileAll_passes (source : KernelSource) (es : List Entry) :
    (Parallel.compileAll source es).Carries (fun _ => True) (fun _ => True) calm := by
  induction es with
  | nil => exact .pure _
  | cons e rest ih =>
      exact (compile_passes _ _).bind fun _ => (Carries.guarded ih).bind fun _ => .pure _

theorem create_passes (config : Config Binary32) (maxRows numCols : Nat) :
    (Parallel.create config maxRows numCols).Carries (fun _ => True) (fun _ => True) calm := by
  refine Carries.bind (.view fun _ _ => rfl) fun info => ?_
  split
  · exact .stop _
  · refine Carries.bind (.word _) fun _ => (compileAll_passes _ _).bind fun _ =>
      (allocateBounds_passes _ _).bind fun bounds =>
      Carries.bind (.guarded ?_) fun _ => Carries.bind (.emit _) fun _ => .pure _
    exact (zeroed_passes _).bind fun _ => .guarded <| (ofWords_passes _).bind fun _ => .guarded <|
      (ofWords_passes _).bind fun _ => .guarded <| (ofWords_passes _).bind fun _ => .guarded <|
      (zeroed_passes _).bind fun _ => .guarded <| (zeroed_passes _).bind fun _ => .guarded <|
      (zeroed_passes _).bind fun _ => .pure _

/-- A solver that was made would have been made without the refusal. The request to refuse
    was not reached while it was made, so it is still to come. -/
theorem parallel_calm {maxRows numCols : Nat} {config : Config Binary32} {d : Device} {j : Journal}
    {s : Solver Parallel Binary32} {u : Traced Device}
    (h : Solver.parallel maxRows numCols config ⟨d, j⟩ = .ok s u) :
    Solver.parallel maxRows numCols config ⟨d.calm, j⟩ = .ok s (u.map calm) := by
  have hcheck : (Exec.check (Solver.checkInput maxRows numCols config) : Exec Device Unit).Carries
      (fun _ => True) (fun _ => True) calm := by
    cases Solver.checkInput maxRows numCols config with
    | ok _ => exact .pure _
    | error e => exact .stop _
  have hpasses := hcheck.bind fun _ => (create_passes config maxRows numCols).bind fun engine =>
    Carries.bind (.emit (.solverCreated maxRows numCols engine.name)) fun _ =>
      .pure (Solver.fresh maxRows numCols config engine)
  exact ((hpasses ⟨d, j⟩ trivial).ok h).1

end Device

namespace Parallel

open Device

/-- The workspace on the device without what it refuses. -/
def Desk.calm (w : Desk) : Desk := w.withDevice w.engine.device.calm

theorem onDevice_carriesAt {E : Stop → Prop} {t : Traced Desk} {α : Type}
    {act : Parallel → Exec Device α}
    (h : CarriesAt (fun _ => True) E Device.calm (act t.state.engine.handle)
      ⟨t.state.engine.device, t.journal⟩) :
    CarriesAt (fun _ => True) E Desk.calm (onDevice act) t := by
  unfold onDevice Workspace.onEngine Attached.onDevice
  refine .focus (g := fun a => { a with device := a.device.calm }) ?_ rfl (fun _ => rfl)
    fun _ => trivial
  refine .bind ⟨rfl, trivial⟩ ?_
  rintro _ u ⟨⟩ -
  exact .focus h rfl (fun _ => rfl) fun _ => trivial

/-- What does not look at the refusal is stopped by it, or it makes no
    difference. -/
theorem carries_of_moves {R : Right → Prop} (hlook : ¬ R .look) {α : Type}
    {act : Exec Desk α} (h : Composed (Moves R) act) :
    act.Carries (fun _ => True) Cuts Desk.calm := by
  refine Composed.carries (fun hstep => ?_) h
  cases hstep with
  | device hact =>
      intro t _
      exact onDevice_carriesAt (Composed.carries
        (asks_carries fun hmay => absurd hmay hlook) (hact _) _ trivial)
  | change _ _ => exact .update (fun _ _ => rfl) fun _ h => h
  | basis _ _ => exact .update (fun _ _ => rfl) fun _ h => h
  | view hf => exact .view fun w _ => hf w _

/-! ### Sums that do not end -/

section Sums

variable {p : Parallel} {d : Device} {a : Wiring} {c : Contents} {b : Board Binary32} {width : Nat}

/-- Whatever comes first, the refusal or the end of the repetition, it stops the
    engine. -/
theorem foldInVain_cuts (hf : p.Fits width b) (hone : ceilDiv (ceilDiv b.numCols width) width
      = ceilDiv b.numCols width) (hfits : ceilDiv b.numCols width * width < UInt32.size)
    (times : Nat) :
    ∀ (second : Bool) {t : Traced Device} {a : Wiring} {c : Contents} {x : Nat → Binary32},
      p.Sees t.state.calm a c → p.Wired a →
      (∀ i < ceilDiv b.numCols width, (c (.sums second)).number? i = some (x i)) →
      ∃ e u, p.foldInVain (ceilDiv b.numCols width) times (p.slot (.sums second))
        (p.slot (.sums !second)) t = .error e u ∧ Cuts e := by
  -- By induction on the repetitions. A reduction that is not refused leaves as many
  -- sums as it found, so the next one finds the same.
  induction times with
  | zero => exact fun _ _ _ _ _ _ _ _ => ⟨_, _, rfl, .endless⟩
  | succ times ih =>
      intro second t a c x hs hw hx
      have hpos := ceilDiv_pos hf.width_pos hf.numCols_pos
      have hgives := foldOnce_gives hf hs hw hpos (Nat.le_refl _) hfits hx
      have hcarries := Composed.carries (asks_carries (p := p) (R := (· ≠ .look))
        fun hne => absurd rfl hne) (foldOnce_composed (fun _ h => h) (ceilDiv b.numCols width)
          second !second) t trivial
      cases hrun : p.foldOnce (ceilDiv b.numCols width) (p.slot (.sums second))
          (p.slot (.sums !second)) t with
      | error e u =>
          refine ⟨e, u, bind_error hrun, (hcarries.error hrun).resolve_right fun hmapped => ?_⟩
          exact hgives.not_error hmapped.1
      | ok r u =>
          rcases hgives.result (hcarries.ok hrun).1 with ⟨a', ws, hs', hw', hsums⟩
          rw [hone] at hsums
          have hnext := ih (!second) hs' hw' (by rw [Contents.set_same]; exact hsums)
          rw [Bool.not_not] at hnext
          rw [foldInVain, bind_ok hrun]
          exact hnext

theorem updateRow_cuts (hv : b.Valid) (hends : sumsEnd width b.numCols = false) {t : Traced Device}
    (h : p.Stands width t.state.calm b) {r : Nat} (hr : r < b.numRows) :
    ∃ e u, p.updateRow b.basis r t = .error e u ∧ Cuts e := by
  have hf := h.fits
  have hplan := Option.isSome_eq_false_iff.mp hends
  rw [Option.isNone_iff_eq_none] at hplan
  -- A workgroup has a single item, or the sums would end.
  have hwidth : width = 1 := by
    have hpos := hf.width_pos
    by_contra hne
    rw [sumsEnd_eq_true hpos (.inl (by omega))] at hends
    cases hends
  have hone : ceilDiv (ceilDiv b.numCols width) width = ceilDiv b.numCols width := by
    rw [hwidth, ceilDiv_one, ceilDiv_one]
  -- So the row is as long as it was, and its items can be counted.
  have hfits : ceilDiv b.numCols width * width < UInt32.size := by
    rw [hwidth, ceilDiv_one, Nat.mul_one]
    exact hf.numCols_lt
  rcases h.holds with ⟨a, c, hs, hw, hc⟩
  have hgives := firstSums_gives hf hs hw hc hv.basis (Nat.lt_of_lt_of_le hr hv.numRows_le) hfits
  have hcarries := Composed.carries (asks_carries (p := p) (R := (· ≠ .look))
    fun hne => absurd rfl hne) (firstSums_composed (fun _ h => h) r) t trivial
  unfold updateRow
  simp only [hf.numCols, hf.workgroup, hplan]
  cases hrun : p.firstSums r t with
  | error e u =>
      refine ⟨e, u, bind_error hrun, (hcarries.error hrun).resolve_right fun hmapped => ?_⟩
      exact hgives.not_error hmapped.1
  | ok x u =>
      rcases hgives.result (hcarries.ok hrun).1 with ⟨a', c', hs', hw', -, -, hsums⟩
      rw [bind_ok hrun]
      exact foldInVain_cuts hf hone hfits _ false hs' hw' hsums

/-- The rows are recomputed as without the refusal, up to where it stops the engine. An
    engine whose sums never end is a case of its own, as there the refusal is the only end
    there is. -/
theorem updateAssignment_carriesAt (hv : b.Valid) {t : Traced Desk}
    (h : Shows width t.state.calm b) :
    CarriesAt (fun _ => True) Cuts Desk.calm
      (Engine.updateAssignment : Exec Desk Unit) t := by
  have hstands : t.state.engine.handle.Stands width t.state.engine.device.calm b := h.stands
  have hf := hstands.fits
  refine .state rfl ?_
  rw [show t.state.basis = b.basis from h.basis]
  refine onDevice_carriesAt ?_
  -- Either the sums end, and every request of the update is one that may be refused and nothing
  -- else, or the first row already stops the engine.
  cases hends : sumsEnd width b.numCols with
  | true =>
      refine Composed.carries (asks_carries (R := fun _ => True) fun _ => ?_)
        (updateAssignment_composed (fun _ _ => trivial) trivial _) _ trivial
      rw [hf.workgroup, hf.numCols]
      exact hends
  | false =>
      refine (Composed.carries (asks_carries (R := (· ≠ .look)) fun hne => absurd rfl hne)
        ensurePrepared_composed _ trivial).bind ?_
      intro _ v hrun _
      -- Where the sums do not end only the preparation is left to ask for, and the engine is
      -- prepared already, so the device is the one it was.
      have hsame : v = ⟨t.state.engine.device, t.journal⟩ := by
        unfold ensurePrepared at hrun
        rw [if_pos hstands.prepared] at hrun
        cases hrun
        rfl
      rw [hsame, show t.state.engine.handle.numRows = b.numRows from hstands.numRows]
      -- Without a row nothing is summed and nothing can stop.
      cases hn : b.numRows with
      | zero => exact ⟨rfl, trivial⟩
      | succ n =>
          rw [List.range_eq_range', List.range'_succ]
          have hpos : 0 < b.numRows := by rw [hn]; exact Nat.succ_pos n
          rcases updateRow_cuts hv hends (t := ⟨t.state.engine.device, t.journal⟩) hstands
            hpos with ⟨e, u, hrow, he⟩
          unfold CarriesAt
          rw [List.forM_eq_forM, List.forM_cons, bind_error hrow]
          exact .inl he

end Sums

end Parallel

namespace Solver

open Device Parallel

/-- The solver on the device without what it refuses. -/
def calm (s : Solver (Attached Parallel) Binary32) : Solver (Attached Parallel) Binary32 :=
  s.withDevice s.device.calm

theorem onWorkspace_carriesAt {E : Stop → Prop} {α : Type} {act : Exec Desk α}
    {t : Traced (Solver (Attached Parallel) Binary32)}
    (h : CarriesAt (fun _ => True) E Desk.calm act ⟨t.state.workspace, t.journal⟩) :
    CarriesAt (fun _ => True) E calm (onWorkspace act) t :=
  .focus h rfl (fun _ => rfl) fun _ => trivial

theorem carries_of_moves {R : Right → Prop} (hlook : ¬ R .look) {α : Type}
    {act : Exec (Solver (Attached Parallel) Binary32) α} (h : Composed (Moves R) act) :
    act.Carries (fun _ => True) Cuts calm := by
  refine Composed.carries (fun hstep => ?_) h
  cases hstep with
  | work hact =>
      exact fun t _ => onWorkspace_carriesAt (Parallel.carries_of_moves hlook hact _ trivial)
  | @change f hworkspace _ hdevice =>
      refine .update (fun s _ => ?_) fun _ h => h
      have hsame : (f s).device = s.device := congrArg (·.engine.device) (hworkspace s)
      rw [calm, hdevice, calm, hsame]
  | view hf => exact .view fun s _ => hf s _

theorem eq_of_halt {β α : Type} {e : Stop} {u v : Traced (Solver β α)}
    (h : halt e v = .error .outOfRange u) : e = .outOfRange := by
  cases e <;> cases h
  rfl

/-- After the exchange of an iteration the engine shows a board again. In three of the four
    ways through an iteration it is the board from before; after an exchange it is the
    exchanged one. -/
theorem exchange_ends {β α : Type} [Scalar α] [Engine β α] {sum : Summation α}
    {obstacle : Nat → Option Obstacle} {Ready Shows : Workspace β α → Board α → Prop} {s₀ s : Solver β α} {b : Board α}
    {l : List (Nat × Nat)} [StrictScalar α] (hF : Engine.Follows sum obstacle Ready Shows)
    (hat : At Shows s₀ s b l) (hv : b.Valid) :
    (exchange l.length : Exec (Solver β α) _).Ends s
      (fun _ s' => ∃ b', b'.Valid ∧ Shows s'.workspace b') fun _ _ => True := by
  refine (checkBounds_gives hF hat hv).ends.bind ?_
  rintro _ s₁ ⟨rfl, hat₁⟩
  -- The cases are those of the iteration itself: nothing is broken, the limit is reached, no
  -- column is suitable, or one is and the exchange takes place.
  cases hb : b.firstBroken with
  | none => exact .pure ⟨b, hv, hat₁.shows_board⟩
  | some leaving =>
      by_cases hlim : s₀.BelowLimit l.length
      · refine (checkLimit_gives hat₁ hlim).ends.bind fun _ s₂ hat₂ => ?_
        refine Exec.Yields.emit.ends ?_
        refine (hat₂.notify _).ends.bind fun _ s₃ hat₃ => ?_
        cases hs : b.firstSuitable leaving with
        | none =>
            have hfind := hF.findNone _ b leaving hat₃.shows_board hv hb hs
            refine Exec.Ends.bind (P := fun r s' => r = none ∧ Shows s'.workspace b)
              (Exec.Gives.focus hfind).ends ?_
            rintro _ s₄ ⟨rfl, hshows⟩
            exact Exec.Yields.emit.ends (.pure ⟨b, hv, hshows⟩)
        | some entering =>
            have hex : b.Exchanges leaving entering := ⟨hb, hs⟩
            have hfind := hF.findSome _ b leaving entering hat₃.shows_board hv hex
            refine Exec.Ends.bind (P := fun r s' => r = some entering ∧
              Shows s'.workspace (b.corrected leaving entering)) (Exec.Gives.focus hfind).ends ?_
            rintro _ s₄ ⟨rfl, hshows⟩
            refine Exec.Ends.bind (P := fun _ s' => Shows s'.workspace
              ((b.corrected leaving entering).exchanged leaving entering))
              (Exec.Gives.focus (hF.pivot _ b leaving entering hv hex hshows)).ends ?_
            intro _ s₅ h₅
            exact .pure ⟨_, hv.exchangedAfter hex, h₅⟩
      · simp only [BelowLimit, Classical.not_forall, Nat.not_lt] at hlim
        rcases hlim with ⟨limit, hmax, hle⟩
        exact (checkLimit_stops hat₁ hmax hle).bind.mono (fun _ _ => trivial) |>.ends

section Search

variable {width : Nat} {b b₀ : Board Binary32} {l : List (Nat × Nat)}
  {s₀ : Solver (Attached Parallel) Binary32}
  {t u v : Traced (Solver (Attached Parallel) Binary32)}

/-- The rest of an iteration does not depend on the refusal where the engine shows
    a board. -/
theorem settle_carriesAt (hv : b.Valid) (h : Shows width t.state.calm.workspace b)
    (step : PivotStep) : CarriesAt (fun _ => True) Cuts calm
      (settle step : Exec (Solver (Attached Parallel) Binary32) _) t := by
  refine .bind ⟨rfl, trivial⟩ ?_
  rintro _ _ ⟨⟩ -
  refine .bind ⟨rfl, trivial⟩ ?_
  rintro _ _ ⟨⟩ -
  refine .bind ⟨rfl, trivial⟩ ?_
  rintro basis u ⟨⟩ -
  -- Counting, recording and reading the basis ask nothing of the device. The callback is told
  -- next and moves neither board nor engine.
  refine .bind (carries_of_moves (R := fun _ => False) id (notify_moves _) _ trivial) ?_
  rintro _ u hnotify -
  have hsame : u.state.workspace = t.state.workspace := by
    cases hnotify
    cases hobs : t.state.observed <;> simp only [hobs, if_true, if_false, Bool.false_eq_true]
  -- So the engine that recomputes its rows shows the board from before the callback.
  have hshows : Shows width (Parallel.Desk.calm u.state.workspace) b := by
    rw [hsame]
    exact h
  exact onWorkspace_carriesAt (updateAssignment_carriesAt hv hshows)

/-- Nor does an iteration. -/
theorem iterate_carriesAt (hat : At (Shows width) s₀ t.state.calm b l) (hv : b.Valid) :
    CarriesAt (fun _ => True) Cuts calm
      (iterate l.length : Exec (Solver (Attached Parallel) Binary32) _) t := by
  rw [iterate_eq]
  have hexchange := carries_of_moves (fun hne => absurd rfl hne)
    (exchange_moves (R := (· ≠ .look)) (fun _ h => h) l.length) t trivial
  refine hexchange.bind fun x u hrun _ => ?_
  cases x with
  | inl sat => exact ⟨rfl, trivial⟩
  | inr step =>
      rcases (exchange_ends (follows width) hat hv).result (hexchange.ok hrun).1 with
        ⟨b', hv', hshows⟩
      exact .bind (settle_carriesAt hv' hshows step) fun _ _ _ _ => ⟨rfl, trivial⟩

variable (hv₀ : b₀.Valid) (hready : Ready width t.state.calm.workspace b₀)
include hv₀ hready

/-- The moments of a search are moments of the search without the refusal. -/
theorem Reaches.calm {n : Nat} (h : Reaches t n u) : Reaches (t.map calm) n (u.map calm) := by
  induction h with
  | start hphase hopen =>
      have hopening := carries_of_moves (fun hne => absurd rfl hne)
        (opening_moves (R := (· ≠ .look)) fun _ h => h) t trivial
      exact .start hphase (hopening.ok hopen).1
  -- The search without the refusal is at a board here, and there the next iteration
  -- does not depend on the refusal.
  | next _ hit ih =>
      rcases ih.at_board (follows width) hv₀ hready with ⟨l, b, hrun, rfl, hat⟩
      exact ih.next ((iterate_carriesAt hat (hrun.valid hv₀)).ok hit).1

/-- A search does not stop at an index outside a table. So none of its launches does.
    Without the refusal it would not either, and a refusal can only make it stop sooner. -/
theorem solve_ne_outOfRange (hphase : t.state.phase = .building) (fuel : Nat) :
    solve fuel t ≠ .error .outOfRange u := by
  intro hsolve
  rcases solve_closing hphase fuel with ⟨e, v, hopen, hhalt⟩ | ⟨n, w, hreach, hclosing⟩
  · have hopening := carries_of_moves (fun hne => absurd rfl hne)
      (opening_moves (R := (· ≠ .look)) fun _ h => h) t trivial
    rw [hhalt] at hsolve
    cases eq_of_halt hsolve
    rcases hopening.error hopen with hcut | ⟨hmapped, -⟩
    · cases hcut
    · exact (opening_gives (follows width) hv₀ hready).not_error hmapped
  · rw [hsolve] at hclosing
    have hcalm := hreach.calm hv₀ hready
    rcases hcalm.at_board (follows width) hv₀ hready with ⟨l, b, hrun, rfl, hat⟩
    generalize hres : (.error .outOfRange u : EStateM.Result Stop _ Bool) = x at hclosing
    cases hclosing with
    | verdict _ _ => cases hres
    | @stopped e v _ hit =>
        cases eq_of_halt hres.symm
        -- This is no stop that depends on the refusal, so the iteration stops like this
        -- without it as well, and there it does not.
        rcases (iterate_carriesAt hat (hrun.valid hv₀)).error hit with hcut | ⟨hmapped, -⟩
        · cases hcut
        · rcases iterate_cases (follows width) hat (hrun.valid hv₀) with ⟨_, _, hgives⟩ |
            ⟨_, _, _, _, hgives⟩ | ⟨_, _, _, _, hstops⟩ | ⟨o, _, hstops⟩
          · exact hgives.not_error hmapped
          · exact hgives.not_error hmapped
          · cases (hstops.error_eq hmapped).1
          · exact o.stop_ne_outOfRange (hstops.error_eq hmapped).1.symm
    | fuel _ => cases hres

end Search

end Solver

end BoundedSimplex
