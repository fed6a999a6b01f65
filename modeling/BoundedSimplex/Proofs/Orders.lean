import BoundedSimplex.Proofs.Looking
import BoundedSimplex.Proofs.Ownership
import BoundedSimplex.Proofs.Pivots
import BoundedSimplex.Proofs.Stores

/-!
# What an Engine Is Told

The states an engine on a device can come into.

A search tells its engine what to do in a fixed order, but an engine cannot rely
on that. It can be told to pivot before any variable is broken, and bounds and
values can be changed between two scans. `Parallel.Order` is all it can be told,
and `Parallel.Reached` are the states that come of it, with a device of any size
and with other users of the device in between. Three orders ask for something:
the tableau is copied once, a variable can only be corrected if it owns a row,
and one that leaves is exchanged with one that owns a column. The roles of
variables are changed by exchanges alone.

In all these states the engine stands at a board. An order that is refused, as an
exchange is whose coefficient is zero, leaves the board as it was, and what a
caller writes gives it other bounds or values. A row that was never taken cannot
be exchanged, since it is zero.

## Main definitions

* `Parallel.Standing`: The engine stands at a board.
* `Parallel.HasRole`: The role of a variable, as the device has it.
* `Parallel.Order`: What an engine is told.
* `Parallel.Reached`: The states it can come into.

## Theorems

* `Parallel.maintains_standing`: Bounds and values that are read and written.
* `Parallel.Shows.findSuitable_gives`, `Parallel.Shows.pivot_ends`: Orders of a
  search, given out of turn.
* `Parallel.Standing.order_ends`: An order, whether it is carried out or refused.
* `Parallel.Reached.standing`: The engine always stands at a board.
* `Parallel.Reached.handle`: It never changes its geometry.
* `Parallel.Reached.exists_prepared`: Every system can be prepared for.
-/

namespace BoundedSimplex

open Exec

/-! ### Bounds and values that are replaced -/

/-- The buffers that a caller writes to. -/
def Slot.HoldsInput (s : Slot) : Prop := s.HoldsBounds ∨ s = .values

theorem Slot.HoldsInput.not_mem_tables {s : Slot} (hs : s.HoldsInput) :
    s ∉ Slot.tables ∧ s ≠ .tableau := by
  rcases hs with (rfl | rfl | rfl) | rfl <;> decide

section Contents

variable {c : Contents} {b : Board Binary32} {s : Slot} {ws : Words}

theorem Contents.Variables.replaced (h : c.Variables b) (hs : s.HoldsInput)
    (hsize : ws.size = (c s).size) :
    ∃ i x, (c.set s ws).Variables { b with interval := i, value := x } := by
  rcases hs with hs | rfl
  · rcases h.setBounds hs hsize with ⟨i, h'⟩
    exact ⟨i, b.value, h'⟩
  · -- Any words are values, so the board takes those that are written.
    refine ⟨b.interval, fun v => (ws.number? v).getD 0, ?_, fun v hv => ?_, fun v hv => ?_⟩
    · rw [Contents.set_other (by decide), Contents.set_other (by decide),
        Contents.set_other (by decide)]
      exact h.bounds
    · rcases Option.map_eq_some_iff.mp (h.values v hv) with ⟨u, hu, -⟩
      rcases Array.getElem?_eq_some_iff.mp hu with ⟨hlt, -⟩
      have hlt' : v < ws.size := hsize ▸ hlt
      have hnumber : ws.number? v = some ⟨ws[v]⟩ := by
        rw [Words.number?, Array.getElem?_eq_getElem hlt', Option.map_some]
      simp only [Contents.set_same, hnumber, Option.getD_some]
    · rw [Contents.set_other (by decide)]
      exact h.flags v hv

theorem Contents.Holds.replaced (h : c.Holds b) (hs : s.HoldsInput)
    (hsize : ws.size = (c s).size) :
    ∃ i x, (c.set s ws).Holds { b with interval := i, value := x } := by
  rcases h.vars.replaced hs hsize with ⟨i, x, hvars⟩
  rcases hs.not_mem_tables with ⟨htables, htableau⟩
  have hkept : (c.set s ws).Tables b := h.tables.congr fun t ht =>
    Contents.set_other fun heq => htables (heq ▸ ht)
  refine ⟨i, x, hvars, ⟨hkept.colVar, hkept.rowVar, hkept.place⟩, ?_⟩
  rw [Contents.set_other htableau.symm]
  exact h.cells

end Contents

namespace Parallel

/-! ### Standing at a board -/

variable {w : Desk} {width : Nat} {b : Board Binary32} {d d' : Device}

/-- The engine stands at a board, before the tableau was copied or afterwards. Which board
    it is may change with every order. -/
def Standing (width : Nat) (w : Desk) : Prop :=
  ∃ b : Board Binary32, b.Valid ∧ (Ready width w b ∨ Shows width w b)

namespace Standing

theorem ready (hv : b.Valid) (h : Ready width w b) : Standing width w := ⟨b, hv, .inl h⟩

theorem shows_board (hv : b.Valid) (h : Shows width w b) : Standing width w := ⟨b, hv, .inr h⟩

theorem refuse (h : Standing width w) : w.engine.device.refuse = none := by
  rcases h with ⟨b, -, hready | hshows⟩
  · rcases hready.holds with ⟨a, c, hs, -⟩
    exact hs.refuse
  · rcases hshows.stands.holds with ⟨a, c, hs, -⟩
    exact hs.refuse

/-- Only what the engine owns counts. -/
theorem onDevice (h : Standing width w) (hd : w.engine.handle.SameOn w.engine.device d) :
    Standing width (w.withDevice d) := by
  rcases h with ⟨b, hv, hready | hshows⟩
  · exact ready hv (hready.onDevice hd)
  · exact shows_board hv (hshows.onDevice hd)

/-- What a gateway counts plays no part. -/
theorem same (h : Standing width (w.withDevice d)) (hhost : d'.host = d.host)
    (hrefuse : d'.refuse = d.refuse) : Standing width (w.withDevice d') := by
  refine h.onDevice (d := d') ⟨hrefuse.trans h.refuse, fun s => ?_, fun e => ?_, ?_⟩
  all_goals
    rw [hhost]
    rfl

/-- A buffer of bounds or of values is written. -/
theorem write (h : Standing width (w.withDevice d)) {s : Slot} (hs : s.HoldsInput) {offset : Nat}
    {data : Words} {m : Memory}
    (hwrite : d.host.memory.write (w.engine.handle.slot s).id offset data = .ok m)
    (hd' : d'.Serves { d.host with memory := m }) : Standing width (w.withDevice d') := by
  rcases Memory.write_eq_ok hwrite with ⟨old, ws, hold, hsize, rfl⟩
  -- A write that is accepted stays within the buffer, which keeps its length.
  have hstored : ∀ {a c}, w.engine.handle.Sees d a c → ws.size = (c s).size ∧
      w.engine.handle.Sees d' a (c.set s ws) := by
    intro a c hsees
    have hsame : old = c s := Option.some.inj (hold.symm.trans (hsees.words s))
    rw [hsame] at hsize
    exact ⟨hsize, hsees.store s hd' (hsize ▸ hsees.length s)⟩
  rcases h with ⟨b, hv, hready | hshows⟩
  · rcases hready.holds with ⟨a, c, hsees, hvars⟩
    rcases hstored hsees with ⟨hsize', hsees'⟩
    rcases hvars.replaced hs hsize' with ⟨i, x, hvars'⟩
    have htableau := hready.tableau
    have hv' : Board.Valid { b with interval := i, value := x } :=
      ⟨hv.basis, hv.numRows_le, hv.zero, hv.spare⟩
    exact ready hv'
      ⟨⟨htableau.maxRows, htableau.numRows, htableau.numCols, htableau.coeff⟩, hready.basis,
        hready.fits.of_eq rfl rfl rfl, hready.prepared, a, _, hsees', hvars'⟩
  · rcases hshows.stands.holds with ⟨a, c, hsees, hw, hc⟩
    rcases hstored hsees with ⟨hsize', hsees'⟩
    rcases hc.replaced hs hsize' with ⟨i, x, hc'⟩
    have hsized := hshows.sized
    have hv' : Board.Valid { b with interval := i, value := x } :=
      ⟨hv.basis, hv.numRows_le, hv.zero, hv.spare⟩
    exact shows_board hv'
      ⟨⟨hsized.maxRows, hsized.numRows, hsized.numCols⟩, hshows.basis,
        hshows.stands.fits.of_eq rfl rfl rfl, hshows.stands.numRows, hshows.stands.prepared, a, _,
        hsees', hw, hc'⟩

end Standing

/-- What a caller does with bounds and values: read them, and write them. -/
def inputs : Right → Prop
  | .write s => s.HoldsInput
  | _ => False

/-- Whatever is read and written there, the engine stands at a board. Values and bounds may
    be anything, so writing some of them leads to another board. -/
theorem maintains_standing {α : Type} {act : Exec Desk α} (h : Composed (Moves inputs) act) :
    act.Maintains (Standing width) fun _ => Standing width := by
  refine maintains_of_moves (fun w γ act hact => ?_) nofun nofun (fun _ _ hw => hw) h
  -- Counting a request changes neither board nor device.
  have hask : ∀ r, (Device.ask r).Maintains (fun d => Standing width (w.withDevice d))
      fun _ d => Standing width (w.withDevice d) := by
    intro r d hd
    refine Exec.Yields.state.ends (Exec.Yields.update.ends ?_)
    split
    · exact .fail (hd.same rfl rfl)
    · exact .pure (hd.same rfl rfl)
  -- The rights allow writing the inputs and reading, and nothing else.
  cases hact with
  | setArg _ _ _ hrun _ => cases hrun
  | launch _ _ hrun => cases hrun
  | look hlook _ => cases hlook
  | write s offset data hs =>
      refine (hask _).bind fun _ => Maintains.bind ?_ fun _ => .update fun d hd => hd.same rfl rfl
      refine .focus fun d hd => Exec.Yields.state.ends ?_
      cases hwrite : d.host.memory.write (w.engine.handle.slot s).id offset data with
      | error e =>
          refine (Exec.Stops.check rfl ?_).bind.ends
          exact hd.same rfl rfl
      | ok m =>
          refine (Exec.Yields.check rfl).ends (Exec.Gives.ends (Exec.Gives.update ?_))
          exact hd.write hs hwrite ⟨hd.refuse, rfl⟩
  | read s offset count =>
      refine (hask _).bind fun _ => Maintains.bind ?_ fun _ => Maintains.bind
        (.update fun d hd => hd.same rfl rfl) fun _ => .pure _
      refine .focus fun d hd => Exec.Yields.state.ends ?_
      cases d.host.memory.read (w.engine.handle.slot s).id offset count with
      | error e =>
          refine (Exec.Stops.check rfl ?_).ends
          exact hd.same rfl rfl
      | ok ws =>
          refine (Exec.Gives.check rfl ?_).ends
          exact hd.same rfl rfl

/-! ### What an engine is told -/

section Steps

variable {R : Right → Prop}

theorem writeValue_composed {p : Parallel} (v : Nat) (x : Binary32) (hvalues : R (.write .values)) :
    Composed (p.Asks R) (p.bounds.writeValue v x) :=
  .bind (.check _) fun _ => set_composed hvalues v _

/-- An operation of the store of bounds is one of the device. -/
theorem onStore_composed {α : Type} {act : Bounds.Resident → Exec Device α}
    (h : ∀ p : Parallel, Composed (p.Asks R) (act p.bounds)) :
    Composed (Moves R) (Workspace.onEngine (Exec.focus
      (fun a => (⟨a.handle.bounds, a.device⟩ : Attached Bounds.Resident))
      (fun r a => { a with device := r.device }) (Attached.onDevice act)) : Exec Desk α) := by
  rw [onEngine_onDevice_eq]
  exact onDevice_composed h

/-- A call of the store and what the caller makes of the reply. -/
theorem onEngine_reply {α β : Type} (act : Exec (Attached Parallel) α) (f : α → β) :
    (Workspace.onEngine (act >>= fun a => pure (f a)) : Exec Desk β)
      = Workspace.onEngine act >>= fun a => pure (f a) :=
  Exec.focus_bind (fun w : Desk => w.engine) (fun e w => { w with engine := e })
    (fun _ _ => rfl) (fun _ _ _ => rfl) act _

theorem reply_composed {α β : Type} {act : Exec (Attached Parallel) α} (f : α → β)
    (h : Composed (Moves R) (Workspace.onEngine act : Exec Desk α)) :
    Composed (Moves R) (Workspace.onEngine (act >>= fun a => pure (f a)) : Exec Desk β) := by
  rw [onEngine_reply]
  exact .bind h fun a => .pure (f a)

/-- Calls of the store read and write bounds, values and roles. -/
theorem perform_composed (c : BoundCall Binary32) (hinput : ∀ s, s.HoldsInput → R (.write s))
    (hrole : (∀ v r, c ≠ .setRole v r) ∨ R (.write .flags)) :
    Composed (Moves R) (Workspace.onEngine c.perform : Exec Desk _) := by
  have hlower := hinput .lower (.inl (.inl rfl))
  have hupper := hinput .upper (.inl (.inr (.inl rfl)))
  have hbounded := hinput .bounded (.inl (.inr (.inr rfl)))
  have hvalues := hinput .values (.inr rfl)
  -- The sides of a bound need the right to its word and to the mask; reading needs no right at
  -- all.
  cases c with
  | numVars =>
      have hview : (Workspace.onEngine (Exec.view BoundStore.numVars) : Exec Desk Nat)
          = Exec.view fun w => BoundStore.numVars w.engine := rfl
      refine reply_composed _ ?_
      rw [hview]
      exact .step (.view fun _ _ => rfl)
  | lower v =>
      exact reply_composed _ (onStore_composed fun _ => readSide_composed v hasLower .lower)
  | upper v =>
      exact reply_composed _ (onStore_composed fun _ => readSide_composed v hasUpper .upper)
  | setLower v x =>
      exact reply_composed _ (onStore_composed fun _ =>
        writeSide_composed (s := .lower) v hasLower x hlower hbounded)
  | setUpper v x =>
      exact reply_composed _ (onStore_composed fun _ =>
        writeSide_composed (s := .upper) v hasUpper x hupper hbounded)
  | setBounds v i =>
      exact reply_composed _ (onStore_composed fun _ =>
        writeBoth_composed v i hlower hupper hbounded)
  | assignment v => exact reply_composed _ (onStore_composed fun _ => readValue_composed v)
  | setAssignment v x =>
      exact reply_composed _ (onStore_composed fun _ => writeValue_composed v x hvalues)
  | assignments n => exact reply_composed _ (onStore_composed fun _ => readValues_composed n)
  | role v => exact reply_composed _ (onStore_composed fun _ => readRole_composed v)
  | setRole v r =>
      rcases hrole with hnone | hflags
      · exact absurd rfl (hnone v r)
      · exact reply_composed _ (onStore_composed fun _ =>
          .bind (.check _) fun _ => set_composed hflags v _)

end Steps

/-- The role of a variable, as the device has it. -/
def HasRole (w : Desk) (r : Role) (v : Nat) : Prop :=
  v < w.engine.handle.numVars ∧ word? w .flags v = some r.flag

theorem Shows.hasRole_iff (h : Shows width w b) {r : Role} {v : Nat} :
    HasRole w r v ↔ v < b.numVars ∧ b.role v = r := by
  rcases h.exists_contents with ⟨c, hc, hword⟩
  rw [HasRole, h.stands.fits.numVars, hword]
  refine and_congr_right fun hv => ?_
  rw [hc.vars.flags v hv, Option.some.injEq, Role.flag_eq_iff]

/-- What can be done with an engine, and with the tableau before it is copied. The index is
    the type of what the engine replies. A search gives these orders in a fixed pattern;
    here they may come in any order that is allowed. -/
inductive Order : Type → Type where
  | addRow (coeffs : Array Binary32) : Order Unit
  | store (c : BoundCall Binary32) : Order (BoundReply Binary32)
  | entry (row col : Nat) : Order Binary32
  | prepare : Order Unit
  | checkBounds : Order (Option Nat)
  | findSuitable (broken : Nat) : Order (Option Nat)
  | pivot (leaving entering : Nat) : Order Unit
  | updateAssignment : Order Unit

namespace Order

variable {α : Type}

/-- Carry out an order. -/
def run {α : Type} : Order α → Exec Desk α
  | addRow coeffs => do
    let w ← Exec.state
    let (_, tableau) ← Exec.check (w.tableau.addRow coeffs)
    Exec.update fun w => { w with tableau := tableau }
  | store c => Workspace.onEngine c.perform
  | entry row col => Engine.entry row col
  | prepare => Engine.prepare
  | checkBounds => Engine.checkBounds
  | findSuitable broken => Engine.findSuitable broken
  | pivot leaving entering => Engine.pivot leaving entering
  | updateAssignment => Engine.updateAssignment

/-- When an order can be given. The tableau is complete when it is copied, which
    happens once, and roles are for the engine to change. -/
def Allowed {α : Type} (w : Desk) : Order α → Prop
  | addRow _ | prepare => w.engine.handle.prepared = false
  | store c => ∀ v r, c ≠ .setRole v r
  | findSuitable broken => HasRole w .basic broken
  | pivot leaving entering => HasRole w .basic leaving ∧ HasRole w .nonbasic entering
  | entry _ _ | checkBounds | updateAssignment => True

/-- No order changes the geometry and the number of variables. -/
theorem maintains_handle (o : Order α) (g : Geometry) (n : Nat) :
    o.run.Maintains (fun w => w.engine.handle.geometry = g ∧ w.engine.handle.numVars = n)
      fun _ w => w.engine.handle.geometry = g ∧ w.engine.handle.numVars = n := by
  -- The rights do not matter here: no move of a desk, whatever it may do, touches the two fields.
  have hmoves : ∀ {act : Exec Desk α}, Composed (Moves fun _ => True) act →
      act.Maintains (fun w => w.engine.handle.geometry = g ∧ w.engine.handle.numVars = n)
        fun _ w => w.engine.handle.geometry = g ∧ w.engine.handle.numVars = n :=
    fun hact => maintains_of_moves
      (fun w _ act _ d hd j => by cases act ⟨d, j⟩ <;> exact hd)
      (fun _ _ _ _ hw => hw) (fun _ _ _ hw => hw) (fun _ _ hw => hw) hact
  have hall : ∀ x : Right, x ≠ .look → (fun _ => True) x := fun _ _ => trivial
  cases o with
  -- Only the tableau changes.
  | addRow coeffs =>
      refine fun w hw => Exec.Yields.state.ends ?_
      cases hadd : w.tableau.addRow coeffs with
      | error e =>
          have hstop : (Exec.check (Except.error e : Except Error (Nat × Tableau Binary32)) :
              Exec Desk _).Stops w (.error e) fun w => w.engine.handle.geometry = g ∧
                w.engine.handle.numVars = n := .check rfl hw
          exact hstop.bind.ends
      | ok x => exact (Exec.Yields.check rfl).ends (Exec.Gives.ends (Exec.Gives.update hw))
  | store c => exact hmoves (perform_composed c (fun _ _ => trivial) (.inr trivial))
  | entry row col => exact hmoves (entry_composed row col)
  | prepare => exact hmoves (prepare_composed hall)
  | checkBounds => exact hmoves (onDevice_composed fun _ => checkBounds_composed hall)
  | findSuitable broken =>
      exact hmoves (onDevice_composed fun _ => findSuitable_composed hall broken)
  | pivot leaving entering => exact hmoves (pivot_composed hall leaving entering)
  | updateAssignment =>
      exact hmoves (state_composed (fun _ _ => rfl) fun w =>
        onDevice_composed fun _ => updateAssignment_composed hall trivial w.basis)

/-- A change of bounds is a call of the store. -/
theorem exists_edit (v : Nat) (e : BoundEdit Binary32) :
    ∃ c, (∀ u r, c ≠ .setRole u r) ∧
      (store c).run = Workspace.onEngine (e.inStore v) >>= fun _ => pure .done := by
  cases e with
  | lower x => exact ⟨.setLower v x, fun _ _ => by rintro ⟨⟩, onEngine_reply _ _⟩
  | upper x => exact ⟨.setUpper v x, fun _ _ => by rintro ⟨⟩, onEngine_reply _ _⟩
  | both i => exact ⟨.setBounds v i, fun _ _ => by rintro ⟨⟩, onEngine_reply _ _⟩

end Order

/-! ### Where an order leaves the engine -/

/-- A row is accepted or refused. -/
theorem Ready.addRow_ends (h : Ready width w b) (hv : b.Valid) (coeffs : Array Binary32) :
    (Order.addRow coeffs).run.Ends w (fun _ => Standing width) fun _ => Standing width := by
  refine Exec.Yields.state.ends ?_
  by_cases hroom : coeffs.size = b.numCols ∧ b.numRows < b.maxRows
  · -- The row goes behind those that are taken, where the board has zeros so far.
    let f : Nat → Nat → Binary32 := fun r c =>
      if r = b.numRows then (coeffs[c]?).getD 0 else b.coeff r c
    have hold : ∀ r, r ≠ b.numRows → ∀ c, f r c = b.coeff r c := fun r hr c => if_neg hr
    have hnew : ∀ c < b.numCols, coeffs[c]? = some (f b.numRows c) := by
      intro c hc
      have hlt : c < coeffs.size := by rw [hroom.1]; exact hc
      simp only [f, if_true, Array.getElem?_eq_getElem hlt, Option.getD_some]
    have hv' : (b.withRows f (b.numRows + 1)).Valid :=
      ⟨hv.basis, hroom.2, fun r (hr : b.numRows + 1 ≤ r) hrm c hc =>
        (hold r (by omega) c).trans (hv.zero r (by omega) hrm c hc),
        fun r (hr : b.numRows + 1 ≤ r) hrm => hv.spare r (by omega) hrm⟩
    rcases h.tableau.addRow hroom.1 hroom.2 hold hnew with ⟨u, hadd, hu⟩
    refine (Exec.Yields.check hadd).ends (Exec.Gives.ends (Exec.Gives.update ?_))
    exact .ready hv' ((builds width).withRows w b u f (b.numRows + 1) h hu)
  · rcases h.tableau.addRow_refused hroom with ⟨e, hadd⟩
    exact (Exec.Stops.check hadd (.ready hv h)).bind.ends

/-- A scan for a variable that suits a basic one, and what it has left on the device. The
    variable need not be broken: an order may name any basic one. -/
theorem Shows.findSuitable_gives (h : Shows width w b) (hv : b.Valid) {leaving : Nat}
    (hl : leaving < b.numVars) (hbasic : b.role leaving = .basic) :
    (Engine.findSuitable leaving : Exec Desk (Option Nat)).Gives w fun r w' =>
      r = b.firstSuitable leaving ∧ Shows width w' (r.elim b (b.corrected leaving)) ∧
        w'.engine.handle = w.engine.handle ∧
        w.engine.handle.Suited leaving r w.engine.device w'.engine.device := by
  refine (onDevice_gives (Parallel.findSuitable_gives h.stands hv hl hbasic)).mono ?_
  rintro r _ ⟨d', ⟨hr, hd', hsuited⟩, rfl⟩
  refine ⟨hr, ⟨?_, ?_, hd'⟩, rfl, hsuited⟩
  · cases r with
    | none => exact h.sized
    | some v => exact ⟨h.sized.maxRows, h.sized.numRows, h.sized.numCols⟩
  · cases r <;> exact h.basis

/-- Two variables whose coefficient is zero are not exchanged. -/
theorem Shows.pivot_stops (h : Shows width w b) (hv : b.Valid) {leaving entering : Nat}
    (hl : leaving < b.numVars) (he : entering < b.numVars) (hlb : b.role leaving = .basic)
    (hen : b.role entering = .nonbasic) (halpha : (b.cross leaving entering).eq 0 = true) :
    (pivot leaving entering : Exec Desk Unit).Stops w
      (.error (.zeroPivot (b.basis.placeOf leaving) (b.basis.placeOf entering)))
      fun w' => Shows width w' b := by
  -- Both places are looked up, and the cell between them is read from the device: it is where the
  -- exchange gives up.
  have hplace : ∀ {v}, v < b.numVars → w.basis.place? v = some (b.basis.placeOf v) := by
    intro v hlt
    rw [h.basis, hv.basis.place?_eq hlt]
  rcases h.stands.holds with ⟨a, c, hs, hw, hc⟩
  refine Exec.Stops.after (onDevice_gives (ensurePrepared_gives h.stands.prepared)) ?_
  rintro _ _ ⟨_, rfl, rfl⟩
  refine Exec.Yields.state.stops ?_
  refine (Exec.Yields.entry (hplace hl)).stops ((Exec.Yields.entry (hplace he)).stops ?_)
  refine ((onDevice_stops (exchange_stops h.stands.fits hs hc (hv.basis.basic leaving hl hlb).1
    (hv.basis.nonbasic entering he hen).1 halpha)).mono ?_).bind
  rintro _ ⟨d', hd', rfl⟩
  exact ⟨h.sized, h.basis, h.stands.fits, h.stands.numRows, h.stands.prepared, a, c, hd', hw, hc⟩

/-- The exchange of two variables that have the roles for it, carried out or refused. It is
    refused if their coefficient is zero, before anything was changed. -/
theorem Shows.pivot_ends (h : Shows width w b) (hv : b.Valid) {leaving entering : Nat}
    (hl : leaving < b.numVars) (he : entering < b.numVars) (hlb : b.role leaving = .basic)
    (hen : b.role entering = .nonbasic) :
    (pivot leaving entering : Exec Desk Unit).Ends w (fun _ => Standing width)
      fun _ => Standing width := by
  cases halpha : (b.cross leaving entering).eq 0 with
  | true =>
      exact ((h.pivot_stops hv hl he hlb hen halpha).mono fun _ hw' => .shows_board hv hw').ends
  | false =>
      -- The rows that were never taken are zero, so this is not one of them.
      have hrow : b.basis.placeOf leaving < b.numRows := by
        refine Nat.lt_of_not_le fun hle => ?_
        have hzero : b.cross leaving entering = 0 := hv.zero _ hle
          (hv.basis.basic leaving hl hlb).1 _ (hv.basis.nonbasic entering he hen).1
        rw [hzero] at halpha
        exact absurd halpha (by decide)
      exact ((pivot_gives h hv.basis hv.numRows_le hl he hlb hen hrow halpha).mono fun _ _ hw' =>
        .shows_board (hv.exchanged hl he hlb hen hrow) hw').ends

/-- The rows that are taken are recomputed, if nothing keeps the engine from it. -/
theorem Shows.update_ends (h : Shows width w b) (hv : b.Valid) :
    (Engine.updateAssignment : Exec Desk Unit).Ends w (fun _ => Standing width)
      fun e w' => (∃ err, e = .error err) → Standing width w' := by
  cases hobstacle : sumObstacle width b.numCols with
  | none =>
    exact (((follows width).update w b h hv hobstacle).mono fun _ _ hw' =>
      .shows_board hv.recomputed hw').ends
  | some o =>
  by_cases hrows : 0 < b.numRows
  · -- Neither obstacle is an error, after which the engine could be used further.
    refine (((follows width).updateStuck w b o h hv hobstacle hrows).mono fun _ _ => ?_).ends
    rintro ⟨_, he⟩
    exact absurd he (o.stop_ne_error _)
  · -- Without a row there is no sum.
    refine Exec.Yields.state.ends (Exec.Gives.ends ((onDevice_gives (P := fun _ d' =>
      d' = w.engine.device) ?_).mono ?_))
    · refine (ensurePrepared_gives h.stands.prepared).bind ?_
      rintro _ _ rfl
      rw [h.stands.numRows, Nat.eq_zero_of_not_pos hrows]
      exact Exec.Gives.pure rfl
    · rintro _ _ ⟨_, rfl, rfl⟩
      exact .shows_board hv h

/-- An order that is carried out or refused leaves the engine at a board. Of an order that
    stops in another way nothing is said. -/
theorem Standing.order_ends {α : Type} {o : Order α} (h : Standing width w) (ho : o.Allowed w) :
    o.run.Ends w (fun _ => Standing width)
      fun e w' => (∃ err, e = .error err) → Standing width w' := by
  -- What a search asks for before the tableau is copied is refused at once.
  have hrefused : ∀ {β : Type} (act : Parallel → Exec Device β), w.engine.handle.prepared = false →
      (Parallel.onDevice fun p => p.ensurePrepared >>= fun _ => act p).Ends w
        (fun _ => Standing width) fun e w' => (∃ err, e = .error err) → Standing width w' := by
    refine fun act hp => Exec.Stops.ends ((unprepared_stops hp act).mono ?_)
    rintro _ rfl -
    exact h
  cases o with
  | store c =>
      exact (maintains_standing (perform_composed c (fun _ hs => hs) (.inl ho)) w h).mono_stop
        fun _ _ hw' _ => hw'
  | entry row col =>
      exact (maintains_standing (entry_composed row col) w h).mono_stop fun _ _ hw' _ => hw'
  | addRow coeffs =>
      rcases h with ⟨b, hv, hready | hshows⟩
      · exact (hready.addRow_ends hv coeffs).mono_stop fun _ _ hw' _ => hw'
      · exact absurd (ho.symm.trans hshows.stands.prepared) Bool.false_ne_true
  | prepare =>
      rcases h with ⟨b, hv, hready | hshows⟩
      · exact ((prepare_gives hready hv.basis).mono fun _ _ hw' => .shows_board hv hw'.1).ends
      · exact absurd (ho.symm.trans hshows.stands.prepared) Bool.false_ne_true
  | checkBounds =>
      rcases h with ⟨b, hv, hready | hshows⟩
      · exact hrefused _ hready.prepared
      · exact (((follows width).checkBounds w b hshows hv).mono fun _ _ hw' =>
          .shows_board hv hw'.2).ends
  | findSuitable broken =>
      rcases h with ⟨b, hv, hready | hshows⟩
      · exact hrefused _ hready.prepared
      · rcases hshows.hasRole_iff.mp ho with ⟨hl, hbasic⟩
        refine ((hshows.findSuitable_gives hv hl hbasic).mono fun r w' hw' => ?_).ends
        refine .shows_board ?_ hw'.2.1
        cases r with
        | none => exact hv
        | some v => exact hv.corrected
  | pivot leaving entering =>
      rcases h with ⟨b, hv, hready | hshows⟩
      · refine ((onDevice_stops (ensurePrepared_stops hready.prepared)).mono ?_).bind.ends
        rintro _ ⟨_, rfl, rfl⟩ -
        exact .ready hv hready
      · rcases hshows.hasRole_iff.mp ho.1 with ⟨hl, hlb⟩
        rcases hshows.hasRole_iff.mp ho.2 with ⟨he, hen⟩
        exact (hshows.pivot_ends hv hl he hlb hen).mono_stop fun _ _ hw' _ => hw'
  | updateAssignment =>
      rcases h with ⟨b, hv, hready | hshows⟩
      · exact Exec.Yields.state.ends (hrefused _ hready.prepared)
      · exact hshows.update_ends hv

/-! ### The states that can be reached -/

/-- The states that an engine made on a device can come into. Orders are given one after the
    other, also after one that was refused, and in between others use the device. A property
    of these states holds of an engine whatever its past. -/
inductive Reached (host : HostDevice) (config : Config Binary32) (maxRows numCols : Nat) :
    Desk → Prop where
  | start {s : Solver Parallel Binary32} {j : Journal} {u : Traced Device} :
      Solver.parallel maxRows numCols config ⟨.toHost host, j⟩ = .ok s u →
      Reached host config maxRows numCols (s.attach u.state).workspace
  | order {α : Type} {o : Order α} {w w' : Desk} {j j' : Journal} {a : α} :
      Reached host config maxRows numCols w → o.Allowed w → o.run ⟨w, j⟩ = .ok a ⟨w', j'⟩ →
      Reached host config maxRows numCols w'
  | refused {α : Type} {o : Order α} {w w' : Desk} {j j' : Journal} {e : Error} :
      Reached host config maxRows numCols w → o.Allowed w →
      o.run ⟨w, j⟩ = .error (.error e) ⟨w', j'⟩ → Reached host config maxRows numCols w'
  | shared {w : Desk} {d : Device} : Reached host config maxRows numCols w →
      w.engine.handle.SameOn w.engine.device d →
      Reached host config maxRows numCols (w.withDevice d)

namespace Reached

variable {host : HostDevice} {config : Config Binary32} {maxRows numCols : Nat}

/-- The engine stands at a board. -/
theorem standing (h : Reached host config maxRows numCols w) :
    Standing (Geometry.ofDevice host.info config.maxWorkgroupSize).workgroup w := by
  induction h with
  | start hmake =>
      rcases fresh_of_parallel hmake with ⟨-, -, hdesc, -⟩
      exact .ready (Problem.valid_board (Nat.zero_le _) _) hdesc.ready
  | order _ ho hrun ih => exact (ih.order_ends ho).result hrun
  | refused _ ho hrun ih => exact (ih.order_ends ho).stopped hrun ⟨_, rfl⟩
  | shared _ hd ih => exact ih.onDevice hd

/-- The engine has the geometry and the number of variables it was made with. -/
theorem handle (h : Reached host config maxRows numCols w) :
    w.engine.handle.geometry = .ofDevice host.info config.maxWorkgroupSize ∧
      w.engine.handle.numVars = numCols + maxRows := by
  induction h with
  | start hmake =>
      rcases fresh_of_parallel hmake with ⟨-, hgeometry, hdesc, -⟩
      exact ⟨hgeometry, hdesc.ready.fits.numVars⟩
  | @order _ o _ _ _ _ _ _ _ hrun ih => exact (o.maintains_handle _ _ _ ih).result hrun
  | @refused _ o _ _ _ _ _ _ _ hrun ih => exact (o.maintains_handle _ _ _ ih).stopped hrun
  | shared _ _ ih => exact ih

/-- Where an order that is carried out leads. -/
theorem exists_of_gives {α : Type} {o : Order α} {P : α → Desk → Prop}
    (h : Reached host config maxRows numCols w) (hgives : o.run.Gives w P) (ho : o.Allowed w) :
    ∃ a w', Reached host config maxRows numCols w' ∧ P a w' := by
  rcases hgives #[] with ⟨a, w', j, hrun, hP⟩
  exact ⟨a, w', .order h ho hrun, hP⟩

/-- A system is described call by call. One that is refused need not be made. -/
theorem exists_call {p : Problem Binary32} {tolerance : Binary32}
    (h : Reached host config maxRows numCols w) (hready : Ready width w (p.board tolerance))
    (c : BuildCall Binary32) :
    ∃ w', Reached host config maxRows numCols w' ∧ Ready width w' ((p.call c).board tolerance) := by
  -- A call that the solver would refuse is one that the problem does not take in either, so
  -- nothing has to be done for it.
  cases c with
  | constraint coeffs =>
      rcases Solver.addRow_cases (builds width) hready coeffs with
        ⟨u, hadd, hready'⟩ | ⟨e, -, hrefused⟩
      · have hadded : (Order.addRow coeffs).run.Gives w fun _ w' =>
            Ready width w' ((p.call (.constraint coeffs)).board tolerance) :=
          Exec.Yields.state.gives ((Exec.Yields.check hadd).gives (Exec.Gives.update hready'))
        rcases h.exists_of_gives hadded hready.prepared with ⟨-, w', h', hready''⟩
        exact ⟨w', h', hready''⟩
      · rw [hrefused]
        exact ⟨w, h, hready⟩
  | bounds v e =>
      by_cases hv : v < p.numVars
      · have hreplies := Solver.edit_replies (builds width) hready v e
        rw [Error.checkIndex_eq_ok_iff.mpr hv] at hreplies
        rcases Order.exists_edit v e with ⟨c, hallowed, hrun⟩
        have hedited : (Order.store c).run.Gives w fun _ w' =>
            Ready width w' ((p.call (.bounds v e)).board tolerance) := by
          rw [hrun]
          exact Exec.Gives.bind hreplies fun _ w' hw' => Exec.Gives.pure hw'.2
        rcases h.exists_of_gives hedited hallowed with ⟨-, w', h', hready'⟩
        exact ⟨w', h', hready'⟩
      · rw [show p.call (.bounds v e) = p from if_neg hv]
        exact ⟨w, h, hready⟩

/-- No state is reached if a chunk does not fit a word. -/
theorem chunk_lt {w : Desk} (h : Reached host config maxRows numCols w) :
    (Geometry.ofDevice host.info config.maxWorkgroupSize).chunk < UInt32.size := by
  induction h with
  | start hmake => exact (input_of_parallel hmake).2.2
  | order _ _ _ ih => exact ih
  | refused _ _ _ ih => exact ih
  | shared _ _ ih => exact ih

/-- Every system that can be described is one that an engine can be prepared for, where
    there is an engine. -/
theorem exists_prepared (hinput : Solver.checkInput maxRows numCols config = .ok ())
    (hlimit : host.info.maxWorkgroupSize ≠ 0)
    (hchunk : (Geometry.ofDevice host.info config.maxWorkgroupSize).chunk < UInt32.size)
    (calls : List (BuildCall Binary32)) :
    ∃ w, Reached host config maxRows numCols w ∧
      Shows (Geometry.ofDevice host.info config.maxWorkgroupSize).workgroup w
        ((Problem.ofCalls maxRows numCols calls).board config.tolerance) := by
  -- Induction on the calls, from the engine that was just made.
  have hcalls : ∀ (calls : List (BuildCall Binary32)) {w : Desk} {p : Problem Binary32}
      {width : Nat}, Reached host config maxRows numCols w →
      Ready width w (p.board config.tolerance) → ∃ w', Reached host config maxRows numCols w' ∧
        Ready width w' ((calls.foldl Problem.call p).board config.tolerance) := by
    intro calls
    induction calls with
    | nil => exact fun h hready => ⟨_, h, hready⟩
    | cons c rest ih =>
        intro w p width h hready
        rcases h.exists_call hready c with ⟨w', h', hready'⟩
        exact ih h' hready'
  rcases parallel_gives hinput (Device.serves_toHost host) rfl hlimit hchunk #[] with
    ⟨s, d, j, hmake, -⟩
  rcases fresh_of_parallel hmake with ⟨-, -, hdesc, engine, rfl⟩
  rcases hcalls calls (.start hmake) hdesc.ready with ⟨w, h, hready⟩
  have hv := Problem.valid_board (Problem.length_rows_ofCalls maxRows numCols calls)
    config.tolerance
  -- What was described is then sent to the device.
  have hprepare : Order.prepare.run.Gives w fun _ w' =>
      Shows (Geometry.ofDevice host.info config.maxWorkgroupSize).workgroup w'
        ((Problem.ofCalls maxRows numCols calls).board config.tolerance) :=
    (prepare_gives hready hv.basis).mono fun _ _ hw' => hw'.1
  rcases h.exists_of_gives hprepare hready.prepared with ⟨-, w', h', hshows⟩
  exact ⟨w', h', hshows⟩

end Reached

end Parallel

end BoundedSimplex
