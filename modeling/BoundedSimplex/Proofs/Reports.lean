import BoundedSimplex.Proofs.Resting

/-!
# What Engines Report

Both engines report the board that they show, and asking them changes nothing.

A solver asks its engine for values, roles and coefficients each time it is
asked itself, before a search as well as after one. One engine looks into its
tables. The other one asks its device, and for coefficients only once they are
there: until the tableau was copied the one of the process counts. `Reports` is
what either has to do, and since it says which error an engine gives for a
variable that does not exist, two engines that report one board cannot be told
apart by such questions.

The device may have been asked before the search or after it, and what the
search left in the other buffers plays no part, so the three questions about
variables are settled once, for a device that holds the variables.

## Main definitions

* `Engine.Reports`: An engine that reports the board that it shows.

## Theorems

* `Sequential.reports`: The engine on tables of the process.
* `Parallel.reports_ready`, `Parallel.reports_shows`: The engine on a device,
  before and after the tableau was copied.
-/

namespace BoundedSimplex

/-- An engine that reports the board that it shows, and shows it afterwards. -/
structure Engine.Reports {β α : Type} [Engine β α] (Shows : Workspace β α → Board α → Prop) :
    Prop where
  sized : ∀ (w : Workspace β α) (b : Board α), Shows w b → w.tableau.Sized b
  basis : ∀ (w : Workspace β α) (b : Board α), Shows w b → w.basis = b.basis
  assignment : ∀ (w : Workspace β α) (b : Board α) (v : Nat), Shows w b →
    (BoundStore.assignment v : Exec β α).Replies w.engine
      ((Error.checkIndex v b.numVars).map fun _ => b.value v)
      fun e => Shows { w with engine := e } b
  assignments : ∀ (w : Workspace β α) (b : Board α), Shows w b →
    (BoundStore.assignments b.numCols : Exec β (Array α)).Replies w.engine
      (.ok ((Array.range b.numCols).map b.value)) fun e => Shows { w with engine := e } b
  role : ∀ (w : Workspace β α) (b : Board α) (v : Nat), Shows w b →
    (BoundStore.role v : Exec β Role).Replies w.engine
      ((Error.checkIndex v b.numVars).map fun _ => b.role v)
      fun e => Shows { w with engine := e } b
  entry : ∀ (w : Workspace β α) (b : Board α) (r c : Nat), Shows w b → r < b.maxRows →
    c < b.numCols → (Engine.entry r c : Exec (Workspace β α) α).Replies w (.ok (b.coeff r c))
      fun w' => Shows w' b

/-- An engine that reports values and roles can be read. -/
theorem Engine.Reports.reads {β α : Type} [Engine β α] {Shows : Workspace β α → Board α → Prop}
    (h : Engine.Reports Shows) : Engine.Reads Shows where
  value w b v hw hv := by
    have hvalue := h.assignment w b v hw
    rw [Error.checkIndex_eq_ok_iff.mpr hv] at hvalue
    exact Exec.Gives.mono hvalue fun _ _ hx => hx.1
  role w b v hw hv := by
    have hrole := h.role w b v hw
    rw [Error.checkIndex_eq_ok_iff.mpr hv] at hrole
    exact Exec.Gives.mono hrole fun _ _ hx => hx.1

/-! ### Tables of the process -/

namespace Bounds.Table

variable {α β : Type} {t : Table α} {b : Board α}

theorem Shows.read_replies (h : t.Shows b) (v : Nat) (f : Variable α → β) :
    (read v f).Replies t ((Error.checkIndex v b.numVars).map fun _ => f (b.entry v))
      fun t' => t' = t := by
  refine Exec.Replies.of_index (fun hv => h.read_gives hv f) fun hv => ?_
  rw [← h.size] at hv ⊢
  refine Exec.Yields.state.stops ?_
  refine Exec.Stops.check ?_ rfl
  rw [at?, Array.getElem?_eq_none hv]
  rfl

theorem Shows.values?_eq (h : t.Shows b) :
    t.values? b.numCols = .ok ((Array.range b.numCols).map b.value) := by
  have hle : b.numCols ≤ t.entries.size := by
    rw [h.size]
    exact Nat.le_add_right _ _
  rw [values?, if_neg (Nat.not_lt.mpr hle)]
  refine congrArg Except.ok (Array.ext_getElem? fun i => ?_)
  simp only [Array.getElem?_map, Array.getElem?_extract, Array.getElem?_range, Nat.zero_add,
    Nat.sub_zero, Nat.min_eq_left hle]
  -- The first entries of the table are the columns, and the values read are no more than those.
  by_cases hi : i < b.numCols
  · have hv : i < b.numVars := Nat.lt_of_lt_of_le hi (Nat.le_add_right _ _)
    rw [if_pos hi, if_pos hi, h.entry i hv]
    rfl
  · rw [if_neg hi, if_neg hi]
    rfl

end Bounds.Table

theorem Sequential.reports {α : Type} [Scalar α] :
    Engine.Reports (β := Sequential α) Shows where
  sized _ _ h := h.tableau.sized
  basis _ _ h := h.basis
  assignment _ _ v h := by
    refine Exec.Replies.focus ((h.bounds.read_replies v (·.value)).mono ?_)
    rintro _ rfl
    exact h
  assignments w b h := by
    refine Exec.Replies.focus (Exec.Replies.ok ?_)
    refine Exec.Yields.state.gives ?_
    exact Exec.Gives.check h.bounds.values?_eq ⟨rfl, h⟩
  role _ _ v h := by
    refine Exec.Replies.focus ((h.bounds.read_replies v (·.role)).mono ?_)
    rintro _ rfl
    exact h
  entry w b r c h hr hc := by
    refine Exec.Replies.ok ?_
    refine Exec.Yields.state.gives ?_
    exact Exec.Gives.check (h.tableau.get hr hc) ⟨rfl, h⟩

/-! ### A device -/

namespace Parallel

variable {p : Parallel} {d : Device} {a : Wiring} {c : Contents} {b : Board Binary32}
  {width v : Nat}

theorem checkVar_stops (hf : p.Fits width b) (hv : b.numVars ≤ v) :
    (p.bounds.check v).Stops d (.error (.indexOutOfBounds v b.numVars)) fun d' => d' = d := by
  rw [← hf.boundVars] at hv ⊢
  exact Exec.Stops.check (if_neg (Nat.not_lt_of_le hv)) rfl

theorem readValue_replies (hf : p.Fits width b) (hs : p.Sees d a c) (hvars : c.Variables b)
    (v : Nat) : (p.bounds.readValue v).Replies d
      ((Error.checkIndex v b.numVars).map fun _ => b.value v) fun d' => p.Sees d' a c := by
  refine Exec.Replies.of_index (fun hv => ?_) fun hv => ?_
  · have hlt : v < (p.slot .values).length := hf.lt_length hv rfl
    rcases Option.map_eq_some_iff.mp (hvars.values v hv) with ⟨w, hw, hval⟩
    refine (checkVar_gives hf hv).bind ?_
    rintro _ d₁ rfl
    refine (hs.get_gives .values hlt hw).bind ?_
    rintro _ d₂ ⟨rfl, h₂⟩
    exact Exec.Gives.pure ⟨hval, h₂⟩
  · refine (checkVar_stops hf hv).bind.mono ?_
    rintro _ rfl
    exact hs

theorem readRole_replies (hf : p.Fits width b) (hs : p.Sees d a c) (hvars : c.Variables b)
    (v : Nat) : (p.bounds.readRole v).Replies d
      ((Error.checkIndex v b.numVars).map fun _ => b.role v) fun d' => p.Sees d' a c := by
  refine Exec.Replies.of_index (fun hv => ?_) fun hv => ?_
  · have hlt : v < (p.slot .flags).length := hf.lt_length hv rfl
    refine (checkVar_gives hf hv).bind ?_
    rintro _ d₁ rfl
    refine (hs.get_gives .flags hlt (hvars.flags v hv)).bind ?_
    rintro _ d₂ ⟨rfl, h₂⟩
    exact Exec.Gives.pure ⟨Role.ofFlag_flag _, h₂⟩
  · refine (checkVar_stops hf hv).bind.mono ?_
    rintro _ rfl
    exact hs

/-- The values of the problem variables, in one transfer. -/
theorem readValues_gives (hf : p.Fits width b) (hs : p.Sees d a c) (hvars : c.Variables b) :
    (p.bounds.readValues b.numCols).Gives d fun xs d' =>
      xs = (Array.range b.numCols).map b.value ∧ p.Sees d' a c := by
  have hle : b.numCols ≤ b.numVars := Nat.le_add_right _ _
  -- One transfer from the start of the buffer, as long as there are columns.
  have hlength : 0 + b.numCols ≤ (p.slot .values).length := by
    rw [hf.elements, Nat.zero_add]
    exact Nat.le_add_left _ _
  unfold Bounds.Resident.readValues
  rw [hf.boundVars, if_neg (Nat.not_lt.mpr hle)]
  refine (hs.read_gives .values hlength).bind ?_
  rintro _ d₁ ⟨rfl, h₁⟩
  refine Exec.Gives.pure ⟨Array.ext_getElem? fun i => ?_, h₁⟩
  have hsize : b.numCols ≤ (c .values).size := by
    have := hs.length .values
    omega
  simp only [Array.getElem?_map, Array.getElem?_extract, Array.getElem?_range, Nat.zero_add,
    Nat.sub_zero, Nat.min_eq_left hsize]
  by_cases hi : i < b.numCols
  · rw [if_pos hi, if_pos hi]
    exact hvars.values i (Nat.lt_of_lt_of_le hi hle)
  · rw [if_neg hi, if_neg hi]
    rfl

theorem inBounds_replies {γ : Type} {w : Attached Parallel} {r : Except Error γ}
    {P : Device → Prop} {act : Bounds.Resident → Exec Device γ}
    (h : (act w.handle.bounds).Replies w.device r P) :
    (Exec.focus (fun a => (⟨a.handle.bounds, a.device⟩ : Attached Bounds.Resident))
      (fun r a => { a with device := r.device }) (Attached.onDevice act) :
      Exec (Attached Parallel) γ).Replies w r fun w' => ∃ d', P d' ∧ w' = ⟨w.handle, d'⟩ := by
  cases r with
  | ok x =>
      refine (inBounds_gives h).mono ?_
      rintro y _ ⟨d', ⟨hy, hd'⟩, rfl⟩
      exact ⟨hy, d', hd', rfl⟩
  | error e => exact inBounds_stops h

/-- The questions about variables, on a device that holds them. -/
theorem store_replies {w : Attached Parallel} (hf : w.handle.Fits width b)
    (hs : w.handle.Sees w.device a c) (hvars : c.Variables b) {P : Attached Parallel → Prop}
    (hP : ∀ d', w.handle.Sees d' a c → P ⟨w.handle, d'⟩) :
    (∀ v, (BoundStore.assignment v : Exec (Attached Parallel) Binary32).Replies w
      ((Error.checkIndex v b.numVars).map fun _ => b.value v) P) ∧
    (BoundStore.assignments b.numCols : Exec (Attached Parallel) (Array Binary32)).Replies w
      (.ok ((Array.range b.numCols).map b.value)) P ∧
    ∀ v, (BoundStore.role v : Exec (Attached Parallel) Role).Replies w
      ((Error.checkIndex v b.numVars).map fun _ => b.role v) P := by
  -- Reading counts a request and leaves the buffers, so whatever is asked of the state afterwards
  -- follows from them.
  have hall : ∀ w', (∃ d', w.handle.Sees d' a c ∧ w' = ⟨w.handle, d'⟩) → P w' := by
    rintro _ ⟨d', hd', rfl⟩
    exact hP d' hd'
  refine ⟨fun v => ?_, ?_, fun v => ?_⟩
  · exact (inBounds_replies (readValue_replies hf hs hvars v)).mono hall
  · exact (inBounds_replies (.ok (readValues_gives hf hs hvars))).mono hall
  · exact (inBounds_replies (readRole_replies hf hs hvars v)).mono hall

/-- Until the tableau was copied the one of the process counts. Values are on the device all
    the time. -/
theorem reports_ready (width : Nat) :
    Engine.Reports (β := Attached Parallel) (Ready width) where
  sized _ _ h := h.tableau.sized
  basis _ _ h := h.basis
  assignment _ _ v h := by
    rcases h.holds with ⟨a, c, hs, hvars⟩
    exact (store_replies h.fits hs hvars fun d' hd' =>
      ⟨h.tableau, h.basis, h.fits, h.prepared, a, c, hd', hvars⟩).1 v
  assignments _ _ h := by
    rcases h.holds with ⟨a, c, hs, hvars⟩
    exact (store_replies h.fits hs hvars fun d' hd' =>
      ⟨h.tableau, h.basis, h.fits, h.prepared, a, c, hd', hvars⟩).2.1
  role _ _ v h := by
    rcases h.holds with ⟨a, c, hs, hvars⟩
    exact (store_replies h.fits hs hvars fun d' hd' =>
      ⟨h.tableau, h.basis, h.fits, h.prepared, a, c, hd', hvars⟩).2.2 v
  entry w b r c h hr hc := by
    refine Exec.Replies.ok ?_
    show (entry r c : Exec Desk Binary32).Gives w _
    refine Exec.Yields.state.gives ?_
    -- An engine that is not prepared answers from the tableau of the process.
    rw [if_neg (by rw [h.prepared]; exact Bool.false_ne_true)]
    exact Exec.Gives.check (h.tableau.get hr hc) ⟨rfl, h⟩

theorem reports_shows (width : Nat) :
    Engine.Reports (β := Attached Parallel) (Shows width) where
  sized _ _ h := h.sized
  basis _ _ h := h.basis
  assignment _ _ v h := by
    rcases h.stands.holds with ⟨a, c, hs, hw, hc⟩
    exact (store_replies h.stands.fits hs hc.vars fun d' hd' =>
      ⟨h.sized, h.basis, h.stands.fits, h.stands.numRows, h.stands.prepared, a, c, hd', hw, hc⟩).1 v
  assignments _ _ h := by
    rcases h.stands.holds with ⟨a, c, hs, hw, hc⟩
    exact (store_replies h.stands.fits hs hc.vars fun d' hd' =>
      ⟨h.sized, h.basis, h.stands.fits, h.stands.numRows, h.stands.prepared, a, c, hd', hw, hc⟩).2.1
  role _ _ v h := by
    rcases h.stands.holds with ⟨a, c, hs, hw, hc⟩
    exact (store_replies h.stands.fits hs hc.vars fun d' hd' => ⟨h.sized, h.basis, h.stands.fits,
      h.stands.numRows, h.stands.prepared, a, c, hd', hw, hc⟩).2.2 v
  entry w b r k h hr hk := by
    have hf := h.stands.fits
    rcases h.stands.holds with ⟨a, c, hs, hw, hc⟩
    refine Exec.Replies.ok ?_
    show (entry r k : Exec Desk Binary32).Gives w _
    refine Exec.Yields.state.gives ?_
    -- A prepared engine reads the cell from the device, after both indices were checked.
    rw [if_pos h.stands.prepared]
    have hrow : r < w.tableau.maxRows := by rw [h.sized.maxRows]; exact hr
    have hcol : k < w.engine.handle.numCols := by rw [hf.numCols]; exact hk
    refine (Exec.Yields.check (Error.checkIndex_eq_ok_iff.mpr hrow)).gives ?_
    refine (Exec.Yields.check (Error.checkIndex_eq_ok_iff.mpr hcol)).gives ?_
    refine (onDevice_gives (getCell_gives hf hs hc hr hk)).bind ?_
    rintro word _ ⟨d', ⟨hval, hd'⟩, rfl⟩
    exact Exec.Gives.pure ⟨hval, h.sized, h.basis, hf, h.stands.numRows, h.stands.prepared, a, c,
      hd', hw, hc⟩

end Parallel

end BoundedSimplex
