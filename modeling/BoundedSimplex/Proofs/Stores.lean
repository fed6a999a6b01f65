import BoundedSimplex.Proofs.Alike
import BoundedSimplex.Proofs.Creation

/-!
# Two Stores of Bounds

Bounds in the buffers of a device cannot be told from bounds in a table.

A table keeps both bounds of a variable as they were set. A device keeps a word
for each and a mask that says which of the words count, so a bound that was
cleared leaves a word behind, and the two bounds share one mask. What makes up
for that is one relation, `Bounds.Resident.Mirrors`: what a kernel reads for a
variable is the entry of the table. A call changes the entry of one variable at
most, and the words of that variable alone, so the relation is kept if the new
words of the variable are told by its new entry.

Every call then replies the same on both, an index out of range with the same
error, and leaves the relation between them. So a session cannot tell which of
the two it works on. A store without variables is no exception: its buffers
have a word each that nobody may read.

## Main definitions

* `BoundCall`, `BoundReply`, `BoundCall.session`: What a caller can do with a
  store, and what he is told.
* `Device.Holds`: A family of buffers on a device, and what they hold.
* `Bounds.Resident.Mirrors`: The buffers read like a table.

## Theorems

* `Bounds.Resident.allocate_mirrors`: The buffers that are made.
* `Bounds.Resident.Mirrors.perform_alike`: One call.
* `Bounds.Resident.Mirrors.session_alike`: A session.
* `resident_refines_table`: A session on new stores.
-/

namespace BoundedSimplex

/-! ### Calls -/

/-- What a caller can do with a store. -/
inductive BoundCall (α : Type) where
  | numVars
  | lower (var : Nat)
  | upper (var : Nat)
  | setLower (var : Nat) (x : Option α)
  | setUpper (var : Nat) (x : Option α)
  | setBounds (var : Nat) (i : Interval α)
  | assignment (var : Nat)
  | setAssignment (var : Nat) (x : α)
  | assignments (count : Nat)
  | role (var : Nat)
  | setRole (var : Nat) (r : Role)

/-- What a caller is told. -/
inductive BoundReply (α : Type) where
  | done
  | count (n : Nat)
  | bound (x : Option α)
  | value (x : α)
  | values (xs : Array α)
  | role (r : Role)
deriving DecidableEq

namespace BoundCall

variable {σ α : Type} [BoundStore σ α]

/-- Carry out a call. -/
def perform : BoundCall α → Exec σ (BoundReply α)
  | .numVars => do
    let n ← Exec.view BoundStore.numVars
    pure (.count n)
  | .lower var => do
    let x ← BoundStore.lower var
    pure (.bound x)
  | .upper var => do
    let x ← BoundStore.upper var
    pure (.bound x)
  | .setLower var x => do
    BoundStore.setLower var x
    pure .done
  | .setUpper var x => do
    BoundStore.setUpper var x
    pure .done
  | .setBounds var i => do
    BoundStore.setBounds var i
    pure .done
  | .assignment var => do
    let x ← BoundStore.assignment var
    pure (.value x)
  | .setAssignment var x => do
    BoundStore.setAssignment var x
    pure .done
  | .assignments count => do
    let xs ← BoundStore.assignments count
    pure (.values xs)
  | .role var => do
    let r ← BoundStore.role var
    pure (.role r)
  | .setRole var r => do
    BoundStore.setRole var r
    pure .done

/-- Carry out a call. An error is a reply too. -/
def answer (c : BoundCall α) : Exec σ (Except Error (BoundReply α)) :=
  Exec.onError (do
    let r ← c.perform
    pure (.ok r)) fun e => pure (.error e)

/-- Carry out calls, one after the other. -/
def session (calls : List (BoundCall α)) : Exec σ (List (Except Error (BoundReply α))) :=
  calls.mapM answer

end BoundCall

/-! ### A family of buffers -/

section SetWord

variable {ι : Type} [DecidableEq ι] (c : ι → Words) (s : ι)

/-- The words of a family of buffers with one word of one of them replaced. -/
def setWord (i : Nat) (w : UInt32) : ι → Words := Function.update c s ((c s).setIfInBounds i w)

@[simp] theorem setWord_same (i : Nat) (w : UInt32) :
    setWord c s i w s = (c s).setIfInBounds i w :=
  Function.update_self ..

@[simp] theorem setWord_other {t : ι} (h : t ≠ s) (i : Nat) (w : UInt32) :
    setWord c s i w t = c t :=
  Function.update_of_ne h ..

theorem getElem?_setWord_ne (t : ι) {i j : Nat} (h : j ≠ i) (w : UInt32) :
    (setWord c s i w t)[j]? = (c t)[j]? := by
  by_cases ht : t = s
  · rw [ht, setWord_same, Array.getElem?_setIfInBounds, if_neg (Ne.symm h)]
  · rw [setWord_other c s ht]

end SetWord

namespace Device

/-- A gateway that refuses nothing, with a family of buffers behind it, all of
    them different, and what they hold. -/
structure Holds {ι : Type} (d : Device) (buffer : ι → Buffer) (c : ι → Words) : Prop where
  refuse : d.refuse = none
  words : ∀ s, d.host.memory.words? (buffer s).id = some (c s)
  inj : ∀ s t, (buffer s).id = (buffer t).id → s = t
  length : ∀ s, (buffer s).length ≤ (c s).size

namespace Holds

variable {ι : Type} {d : Device} {buffer : ι → Buffer} {c : ι → Words}

theorem serves (h : d.Holds buffer c) : d.Serves d.host := ⟨h.refuse, rfl⟩

theorem same (h : d.Holds buffer c) {d' : Device} (hd' : d'.Serves d.host) : d'.Holds buffer c where
  refuse := hd'.refuse
  words s := by rw [hd'.host, h.words s]
  inj := h.inj
  length := h.length

theorem read_gives (h : d.Holds buffer c) (s : ι) {start count : Nat}
    (hend : start + count ≤ (buffer s).length) :
    ((buffer s).read start count).Gives d
      fun r d' => r = (c s).extract start (start + count) ∧ d'.Holds buffer c := by
  refine (Exec.Yields.check (if_neg (Nat.not_lt.mpr hend))).gives ?_
  exact (h.serves.read_gives (h.words s) (Nat.le_trans hend (h.length s))).mono
    fun r d' hr => ⟨hr.1, h.same hr.2⟩

/-- One word is read as it is. -/
theorem get_gives (h : d.Holds buffer c) (s : ι) {i : Nat} (hi : i < (buffer s).length)
    {w : UInt32} (hw : (c s)[i]? = some w) :
    ((buffer s).get i).Gives d fun r d' => r = w ∧ d'.Holds buffer c := by
  refine (h.read_gives s (show i + 1 ≤ (buffer s).length from hi)).bind ?_
  rintro _ d' ⟨rfl, hd'⟩
  refine Exec.Gives.pure ⟨?_, hd'⟩
  have hlt : i < (c s).size := Nat.lt_of_lt_of_le hi (h.length s)
  rw [Array.getElem?_extract, if_pos (by omega), Nat.add_zero, hw, Option.getD_some]

/-- One word is replaced. -/
theorem set_gives [DecidableEq ι] (h : d.Holds buffer c) (s : ι) {i : Nat}
    (hi : i < (buffer s).length) (x : UInt32) :
    ((buffer s).set i x).Gives d fun _ d' =>
      d'.Holds buffer (setWord c s i x) := by
  have hsize : i + 1 ≤ (c s).size := Nat.lt_of_lt_of_le hi (h.length s)
  refine (Exec.Yields.check (if_neg (Nat.not_lt.mpr hi))).gives ?_
  refine (h.serves.write_gives (h.words s) hsize).mono fun _ d' hd' => ?_
  rw [Words.overlay_singleton hsize] at hd'
  refine ⟨hd'.refuse, fun t => ?_, h.inj, fun t => ?_⟩
  · rw [hd'.host, Memory.words?_store _ (h.words s)]
    -- The buffers are all different, so the write is seen in one of them only.
    by_cases hts : t = s
    · rw [hts, if_pos rfl, setWord_same]
    · rw [if_neg fun heq => hts (h.inj t s heq.symm), setWord_other c s hts, h.words t]
  · by_cases hts : t = s
    · rw [hts, setWord_same, Array.size_setIfInBounds]
      exact h.length s
    · rw [setWord_other c s hts]
      exact h.length t

end Holds

/-- A buffer without elements gets a word. -/
theorem Keeps.ofWords_empty_gives {d : Device} {kernels : Array (Option CompiledKernel)}
    {limits : Limits} {l : List (Buffer × Words)} (h : d.Keeps kernels limits l) {ws : Words}
    (hsize : ws.size = 0) :
    (Buffer.ofWords ws).Gives d fun b d' =>
      b.length = 0 ∧ d'.Keeps kernels limits ((b, zeros 0) :: l) := by
  unfold Buffer.ofWords
  rw [if_pos (Array.isEmpty_iff_size_eq_zero.mpr hsize)]
  exact h.zeroed_gives 0

end Device

/-! ### The table -/

namespace Bounds

namespace Table

variable {α : Type}

/-- A table with the entry of a variable changed, if there is one. -/
def changed (t : Table α) (var : Nat) (f : Variable α → Variable α) : Table α :=
  { t with entries := t.entries.modify var f }

theorem read_replies {β : Type} (t : Table α) (var : Nat) (f : Variable α → β) :
    (read var f).Replies t ((t.at? var).map f) (· = t) := by
  cases hat : t.at? var with
  | ok e =>
      refine Exec.Yields.state.gives (Exec.Gives.check ?_ ⟨rfl, rfl⟩)
      rw [hat]
      rfl
  | error e =>
      refine Exec.Yields.state.stops (Exec.Stops.check ?_ rfl)
      rw [hat]
      rfl

theorem assignments_replies (t : Table Binary32) (count : Nat) :
    (BoundStore.assignments count).Replies t (t.values? count) (· = t) := by
  cases hvalues : t.values? count with
  | ok xs => exact Exec.Yields.state.gives (Exec.Gives.check hvalues ⟨rfl, rfl⟩)
  | error e => exact Exec.Yields.state.stops (Exec.Stops.check hvalues rfl)

theorem at?_eq_ok {t : Table α} {var : Nat} (h : var < t.entries.size) :
    t.at? var = .ok t.entries[var] := by
  rw [at?, Array.getElem?_eq_getElem h]

theorem at?_eq_error {t : Table α} {var : Nat} (h : t.entries.size ≤ var) :
    t.at? var = .error (.indexOutOfBounds var t.entries.size) := by
  rw [at?, Array.getElem?_eq_none h]

theorem changed_of_le {t : Table α} {var : Nat} (h : t.entries.size ≤ var)
    (f : Variable α → Variable α) : t.changed var f = t := by
  have hsame : t.entries.modify var f = t.entries := by
    refine Array.ext_getElem? fun v => ?_
    rw [Array.getElem?_modify]
    by_cases hv : var = v
    · rw [if_pos hv, ← hv, Array.getElem?_eq_none h, Option.map_none]
    · rw [if_neg hv]
  rw [changed, hsame]

theorem size_changed (t : Table α) (var : Nat) (f : Variable α → Variable α) :
    (t.changed var f).entries.size = t.entries.size :=
  Array.size_modify

theorem change_replies (t : Table α) (var : Nat) (f : Variable α → Variable α) :
    (change var f).Replies t ((t.at? var).map fun _ => ()) (· = t.changed var f) := by
  by_cases h : var < t.entries.size
  · rw [at?_eq_ok h]
    refine Exec.Yields.state.gives ?_
    refine (Exec.Yields.check (if_pos h)).gives ?_
    exact Exec.Gives.update ⟨rfl, rfl⟩
  · have hle := Nat.le_of_not_lt h
    rw [at?_eq_error hle, changed_of_le hle]
    refine Exec.Yields.state.stops ?_
    exact (Exec.Stops.check (P := (· = t)) (if_neg h) rfl).bind

/-- Both bounds are set one after the other, and there is one check for both. -/
theorem setBounds_replies (t : Table Binary32) (var : Nat) (i : Interval Binary32) :
    (BoundStore.setBounds var i).Replies t ((t.at? var).map fun _ => ())
      (· = t.changed var fun e => { e with interval := i }) := by
  by_cases h : var < t.entries.size
  · have hlower := change_replies t var fun e => { e with interval.lower := i.lower }
    rw [at?_eq_ok h] at hlower ⊢
    refine Exec.Gives.bind hlower ?_
    rintro _ _ ⟨-, rfl⟩
    have hupper := change_replies (t.changed var fun e => { e with interval.lower := i.lower }) var
      fun e => { e with interval.upper := i.upper }
    rw [at?_eq_ok (by rw [size_changed]; exact h)] at hupper
    refine Exec.Gives.mono hupper ?_
    rintro _ _ ⟨-, rfl⟩
    refine ⟨rfl, congrArg (Table.mk · t.tolerance) (Array.ext_getElem? fun v => ?_)⟩
    simp only [changed, Array.getElem?_modify]
    -- Two changes of one entry, one after the other, are the one change of its interval.
    by_cases hv : var = v
    · simp only [if_pos hv, Option.map_map]
      rfl
    · simp only [if_neg hv]
  · have hle := Nat.le_of_not_lt h
    have hlower := change_replies t var fun e => { e with interval.lower := i.lower }
    rw [at?_eq_error hle, changed_of_le hle] at hlower ⊢
    exact Exec.Stops.bind hlower

end Table

/-! ### The buffers -/

namespace Resident

/-- The buffers of a store by their purpose. -/
inductive Part where
  | lower
  | upper
  | bounded
  | values
  | flags
deriving DecidableEq

/-- A buffer of the store. -/
def part (r : Resident) : Part → Buffer
  | .lower => r.lower
  | .upper => r.upper
  | .bounded => r.bounded
  | .values => r.values
  | .flags => r.flags

/-- The words of a variable tell its entry. A side of the bounds is read through the mask,
    so the word of a bound that is not set may be anything. -/
structure Tells (c : Part → Words) (v : Nat) (e : Variable Binary32) : Prop where
  lower : BoundView.side? (c .lower) (c .bounded) hasLower v = some e.interval.lower
  upper : BoundView.side? (c .upper) (c .bounded) hasUpper v = some e.interval.upper
  value : (c .values).number? v = some e.value
  flag : (c .flags)[v]? = some e.role.flag

/-- Only the words of the variable count. -/
theorem Tells.congr {c c' : Part → Words} {v : Nat} {e : Variable Binary32} (h : Tells c v e)
    (hsame : ∀ s, (c' s)[v]? = (c s)[v]?) : Tells c' v e := by
  rcases h with ⟨hlower, hupper, hvalue, hflag⟩
  constructor
  · rw [← hlower]
    simp only [BoundView.side?, Words.number?, hsame]
  · rw [← hupper]
    simp only [BoundView.side?, Words.number?, hsame]
  · rw [← hvalue]
    simp only [Words.number?, hsame]
  · rw [hsame, hflag]

/-- Other bounds were written, and nothing else. -/
theorem Tells.withInterval {c c' : Part → Words} {v : Nat} {e : Variable Binary32}
    (h : Tells c v e) {i : Interval Binary32} (hvalues : c' .values = c .values)
    (hflags : c' .flags = c .flags)
    (hlower : BoundView.side? (c' .lower) (c' .bounded) hasLower v = some i.lower)
    (hupper : BoundView.side? (c' .upper) (c' .bounded) hasUpper v = some i.upper) :
    Tells c' v { e with interval := i } :=
  ⟨hlower, hupper, by rw [hvalues]; exact h.value, by rw [hflags]; exact h.flag⟩

/-- The buffers hold these words, and the words tell the entries of a table. Only what can
    be read is related; the words of a bound that was cleared are still there and tell
    nothing. -/
structure Mirrors (r : Resident) (d : Device) (c : Part → Words) (t : Table Binary32) : Prop where
  holds : d.Holds r.part c
  numVars : r.numVars = t.entries.size
  length : ∀ s, (r.part s).length = r.numVars
  entry : ∀ v e, t.entries[v]? = some e → Tells c v e

variable {r : Resident} {d : Device} {c : Part → Words} {t : Table Binary32} {v : Nat}
  {e : Variable Binary32}

namespace Mirrors

theorem lt_length (h : r.Mirrors d c t) (he : t.entries[v]? = some e) (s : Part) :
    v < (r.part s).length := by
  rcases Array.getElem?_eq_some_iff.mp he with ⟨hv, -⟩
  rw [h.length, h.numVars]
  exact hv

/-- The entry of one variable was changed, and its words with it. -/
theorem change (h : r.Mirrors d c t) {d' : Device} {c' : Part → Words}
    {f : Variable Binary32 → Variable Binary32} (hd' : d'.Holds r.part c')
    (hother : ∀ u, u ≠ v → ∀ s, (c' s)[u]? = (c s)[u]?)
    (hnew : ∀ e, t.entries[v]? = some e → Tells c' v (f e)) :
    r.Mirrors d' c' (t.changed v f) where
  holds := hd'
  numVars := h.numVars.trans (t.size_changed v f).symm
  length := h.length
  entry u e' he' := by
    rw [Table.changed, Array.getElem?_modify] at he'
    -- The words of another variable are the old ones, and so is its entry.
    by_cases huv : v = u
    · rw [if_pos huv, ← huv] at he'
      rcases Option.map_eq_some_iff.mp he' with ⟨e, he, rfl⟩
      exact huv ▸ hnew e he
    · rw [if_neg huv] at he'
      exact (h.entry u e' he').congr (hother u (Ne.symm huv))

/-- What is done to a variable replies as the table does if it gives what the
    entry says. -/
theorem checked (h : r.Mirrors d c t) {β : Type} {act : Exec Device β}
    {f : Variable Binary32 → β} {P : Device → Prop}
    (hin : ∀ e, t.entries[v]? = some e → act.Gives d fun x d' => x = f e ∧ P d')
    (hout : t.entries.size ≤ v → P d) :
    (do r.check v; act : Exec Device β).Replies d ((t.at? v).map f) P := by
  by_cases hv : v < t.entries.size
  · rw [Table.at?_eq_ok hv]
    refine (Exec.Yields.check (if_pos (by rw [h.numVars]; exact hv))).gives ?_
    exact hin _ (Array.getElem?_eq_getElem hv)
  · have hle := Nat.le_of_not_lt hv
    rw [Table.at?_eq_error hle]
    refine (Exec.Stops.check ?_ (hout hle)).bind
    rw [h.numVars]
    exact if_neg hv

/-! #### Questions -/

/-- A bound that the words tell is read. -/
theorem readSide_replies (h : r.Mirrors d c t) (v : Nat) (bit : UInt32) (s : Part)
    {f : Variable Binary32 → Option Binary32}
    (htold : ∀ e, t.entries[v]? = some e → BoundView.side? (c s) (c .bounded) bit v = some (f e)) :
    (r.readSide v bit (r.part s)).Replies d ((t.at? v).map f) (r.Mirrors · c t) := by
  refine h.checked (fun e he => ?_) fun _ => h
  have hside := htold e he
  rcases Option.bind_eq_some_iff.mp hside with ⟨mask, hmask, hword⟩
  refine (h.holds.get_gives .bounded (h.lt_length he _) hmask).bind ?_
  rintro mask d₁ ⟨rfl, h₁⟩
  -- The bit of the mask says whether the bound exists, in the words and in the entry alike.
  by_cases hbit : mask &&& bit = 0
  · rw [if_pos hbit] at hword
    rw [if_pos hbit]
    exact Exec.Gives.pure ⟨Option.some.inj hword, h₁, h.numVars, h.length, h.entry⟩
  · rw [if_neg hbit] at hword ⊢
    rcases Option.map_eq_some_iff.mp hword with ⟨x, hx, hfe⟩
    rcases Option.map_eq_some_iff.mp hx with ⟨w, hw, rfl⟩
    refine (h₁.get_gives s (h.lt_length he _) hw).bind ?_
    rintro _ d₂ ⟨rfl, h₂⟩
    exact Exec.Gives.pure ⟨hfe, h₂, h.numVars, h.length, h.entry⟩

theorem readValue_replies (h : r.Mirrors d c t) (v : Nat) :
    (r.readValue v).Replies d ((t.at? v).map (·.value)) (r.Mirrors · c t) := by
  refine h.checked (fun e he => ?_) fun _ => h
  rcases Option.map_eq_some_iff.mp (h.entry v e he).value with ⟨w, hw, hvalue⟩
  refine (h.holds.get_gives .values (h.lt_length he _) hw).bind ?_
  rintro _ d₁ ⟨rfl, h₁⟩
  exact Exec.Gives.pure ⟨hvalue, h₁, h.numVars, h.length, h.entry⟩

theorem readRole_replies (h : r.Mirrors d c t) (v : Nat) :
    (r.readRole v).Replies d ((t.at? v).map (·.role)) (r.Mirrors · c t) := by
  refine h.checked (fun e he => ?_) fun _ => h
  refine (h.holds.get_gives .flags (h.lt_length he _) (h.entry v e he).flag).bind ?_
  rintro _ d₁ ⟨rfl, h₁⟩
  exact Exec.Gives.pure ⟨Role.ofFlag_flag e.role, h₁, h.numVars, h.length, h.entry⟩

/-- One transfer reads the values of the first variables. -/
theorem readValues_replies (h : r.Mirrors d c t) (count : Nat) :
    (r.readValues count).Replies d (t.values? count) (r.Mirrors · c t) := by
  unfold readValues Table.values?
  rw [h.numVars]
  -- Asking for more values than there are variables is refused on both sides.
  by_cases hcount : t.entries.size < count
  · rw [if_pos hcount, if_pos hcount]
    exact Exec.Stops.fail h
  · rw [if_neg hcount, if_neg hcount]
    have hroom : 0 + count ≤ (r.part .values).length := by
      rw [h.length, h.numVars]
      omega
    refine (h.holds.read_gives .values hroom).bind ?_
    rintro _ d₁ ⟨rfl, h₁⟩
    refine Exec.Gives.pure ⟨Array.ext_getElem? fun v => ?_, h₁, h.numVars, h.length, h.entry⟩
    have hsize := h.holds.length .values
    simp only [Array.getElem?_map, Array.getElem?_extract, Nat.zero_add, Nat.sub_zero]
    by_cases hv : v < count
    · have hlt : v < t.entries.size := by omega
      have hvalue := (h.entry v _ (Array.getElem?_eq_getElem hlt)).value
      rw [if_pos (by omega), if_pos (by omega), Array.getElem?_eq_getElem hlt]
      exact hvalue
    · rw [if_neg (by omega), if_neg (by omega)]
      rfl

/-! #### Changes -/

/-- One bound was replaced: its word, and its bit of the mask. -/
theorem writeSide_replies (h : r.Mirrors d c t) (v : Nat) (bit : UInt32) (s : Part)
    (x : Option Binary32) {f : Variable Binary32 → Variable Binary32}
    (htold : ∀ e mask, t.entries[v]? = some e → (c .bounded)[v]? = some mask →
      Tells (setWord (setWord c s v (sideWord x)) .bounded v (withBit mask bit x.isSome)) v (f e)) :
    (r.writeSide v bit (r.part s) x).Replies d ((t.at? v).map fun _ => ())
      fun d' => ∃ c', r.Mirrors d' c' (t.changed v f) := by
  refine h.checked (fun e he => ?_) fun hle => ⟨c, by rw [Table.changed_of_le hle]; exact h⟩
  rcases Option.bind_eq_some_iff.mp (h.entry v e he).lower with ⟨mask, hmask, -⟩
  refine (h.holds.get_gives .bounded (h.lt_length he _) hmask).bind ?_
  rintro mask d₁ ⟨rfl, h₁⟩
  refine (h₁.set_gives s (h.lt_length he s) _).bind fun _ d₂ h₂ => ?_
  refine (h₂.set_gives .bounded (h.lt_length he _) _).mono fun _ d₃ h₃ => ?_
  refine ⟨rfl, _, h.change h₃ (fun u huv s' => ?_) fun e' he' => htold e' mask he' hmask⟩
  rw [getElem?_setWord_ne _ _ _ huv, getElem?_setWord_ne _ _ _ huv]

/-- The word of a mask that was replaced. -/
theorem getElem?_mask (h : r.Mirrors d c t) (he : t.entries[v]? = some e) (c' : Part → Words)
    (hc' : c' .bounded = c .bounded) (mask : UInt32) :
    (setWord c' .bounded v mask .bounded)[v]? = some mask := by
  have hv := Nat.lt_of_lt_of_le (h.lt_length he .bounded) (h.holds.length .bounded)
  rw [setWord_same, hc', Array.getElem?_setIfInBounds, if_pos rfl, if_pos hv]

theorem setLower_replies (h : r.Mirrors d c t) (v : Nat) (x : Option Binary32) :
    (r.writeSide v hasLower r.lower x).Replies d ((t.at? v).map fun _ => ())
      fun d' => ∃ c', r.Mirrors d' c' (t.changed v fun e => { e with interval.lower := x }) := by
  refine h.writeSide_replies v hasLower .lower x fun e mask he hmask => ?_
  have htold := h.entry v e he
  have hv := Nat.lt_of_lt_of_le (h.lt_length he .lower) (h.holds.length .lower)
  have hmask' := h.getElem?_mask he (setWord c .lower v (sideWord x)) (by simp)
    (withBit mask hasLower x.isSome)
  refine htold.withInterval (by simp) (by simp) ?_ ?_
  · rw [setWord_other _ _ (by decide), setWord_same]
    exact BoundView.side?_of_mask hv hmask' (withBit_and_self (by decide) _)
  -- The bit of the other side is not the one that is written.
  · have hbit := withBit_and_other mask (show hasLower &&& hasUpper = 0 by decide)
      (by decide) x.isSome
    rw [setWord_other _ _ (by decide), setWord_other _ _ (by decide)]
    exact (BoundView.side?_of_and_eq hmask hmask' hbit).trans htold.upper

theorem setUpper_replies (h : r.Mirrors d c t) (v : Nat) (x : Option Binary32) :
    (r.writeSide v hasUpper r.upper x).Replies d ((t.at? v).map fun _ => ())
      fun d' => ∃ c', r.Mirrors d' c' (t.changed v fun e => { e with interval.upper := x }) := by
  refine h.writeSide_replies v hasUpper .upper x fun e mask he hmask => ?_
  have htold := h.entry v e he
  have hv := Nat.lt_of_lt_of_le (h.lt_length he .upper) (h.holds.length .upper)
  have hmask' := h.getElem?_mask he (setWord c .upper v (sideWord x)) (by simp)
    (withBit mask hasUpper x.isSome)
  refine htold.withInterval (by simp) (by simp) ?_ ?_
  -- The bit of the other side is not the one that is written.
  · have hbit := withBit_and_other mask (show hasUpper &&& hasLower = 0 by decide)
      (by decide) x.isSome
    rw [setWord_other _ _ (by decide), setWord_other _ _ (by decide)]
    exact (BoundView.side?_of_and_eq hmask hmask' hbit).trans htold.lower
  · rw [setWord_other _ _ (by decide), setWord_same]
    exact BoundView.side?_of_mask hv hmask' (withBit_and_self (by decide) _)

/-- Both bounds were replaced, and the whole mask. -/
theorem writeBoth_replies (h : r.Mirrors d c t) (v : Nat) (i : Interval Binary32) :
    (r.writeBoth v i).Replies d ((t.at? v).map fun _ => ())
      fun d' => ∃ c', r.Mirrors d' c' (t.changed v fun e => { e with interval := i }) := by
  refine h.checked (fun e he => ?_) fun hle => ⟨c, by rw [Table.changed_of_le hle]; exact h⟩
  refine (h.holds.set_gives .lower (h.lt_length he _) _).bind fun _ d₁ h₁ => ?_
  refine (h₁.set_gives .upper (h.lt_length he _) _).bind fun _ d₂ h₂ => ?_
  refine (h₂.set_gives .bounded (h.lt_length he _) _).mono fun _ d₃ h₃ => ?_
  refine ⟨rfl, _, h.change h₃ (fun u huv s' => ?_) fun e' he' => ?_⟩
  · rw [getElem?_setWord_ne _ _ _ huv, getElem?_setWord_ne _ _ _ huv,
      getElem?_setWord_ne _ _ _ huv]
  -- Here the mask is not read: it is a new one, made of the two bounds.
  · have hmask := h.getElem?_mask he (setWord (setWord c .lower v (sideWord i.lower)) .upper v
      (sideWord i.upper)) (by simp) (boundMask i)
    have hlower := Nat.lt_of_lt_of_le (h.lt_length he .lower) (h.holds.length .lower)
    have hupper := Nat.lt_of_lt_of_le (h.lt_length he .upper) (h.holds.length .upper)
    refine (h.entry v e' he').withInterval (by simp) (by simp) ?_ ?_
    · rw [setWord_other _ _ (by decide), setWord_other _ _ (by decide), setWord_same]
      exact BoundView.side?_of_mask hlower hmask (boundMask_and_hasLower i)
    · rw [setWord_other _ _ (by decide), setWord_same, setWord_other _ _ (by decide)]
      exact BoundView.side?_of_mask hupper hmask (boundMask_and_hasUpper i)

/-- One word of the variable was replaced. -/
theorem writeWord_replies (h : r.Mirrors d c t) (v : Nat) (s : Part) (w : UInt32)
    {f : Variable Binary32 → Variable Binary32}
    (htold : ∀ e, t.entries[v]? = some e → Tells (setWord c s v w) v (f e)) :
    (do r.check v; (r.part s).set v w : Exec Device Unit).Replies d ((t.at? v).map fun _ => ())
      fun d' => ∃ c', r.Mirrors d' c' (t.changed v f) := by
  refine h.checked (fun e he => ?_) fun hle => ⟨c, by rw [Table.changed_of_le hle]; exact h⟩
  refine (h.holds.set_gives s (h.lt_length he s) w).mono fun _ d' hd' => ?_
  exact ⟨rfl, _, h.change hd' (fun u huv s' => getElem?_setWord_ne c s s' huv w) htold⟩

theorem writeValue_replies (h : r.Mirrors d c t) (v : Nat) (x : Binary32) :
    (r.writeValue v x).Replies d ((t.at? v).map fun _ => ())
      fun d' => ∃ c', r.Mirrors d' c' (t.changed v fun e => { e with value := x }) := by
  refine h.writeWord_replies v .values x.bits fun e he => ?_
  have htold := h.entry v e he
  have hv := Nat.lt_of_lt_of_le (h.lt_length he .values) (h.holds.length .values)
  refine ⟨htold.lower, htold.upper, ?_, htold.flag⟩
  rw [setWord_same, Words.number?, Array.getElem?_setIfInBounds, if_pos rfl, if_pos hv]
  rfl

theorem writeRole_replies (h : r.Mirrors d c t) (v : Nat) (role : Role) :
    (r.writeRole v role).Replies d ((t.at? v).map fun _ => ())
      fun d' => ∃ c', r.Mirrors d' c' (t.changed v fun e => { e with role := role }) := by
  refine h.writeWord_replies v .flags role.flag fun e he => ?_
  have htold := h.entry v e he
  have hv := Nat.lt_of_lt_of_le (h.lt_length he .flags) (h.holds.length .flags)
  refine ⟨htold.lower, htold.upper, htold.value, ?_⟩
  rw [setWord_same, Array.getElem?_setIfInBounds, if_pos rfl, if_pos hv]

end Mirrors

/-! ### Both stores -/

/-- A store on a device, with these buffers, and a table that cannot be told
    from it. -/
def Twin (r : Resident) (a : Attached Resident) (t : Table Binary32) : Prop :=
  a.handle = r ∧ ∃ c, r.Mirrors a.device c t

/-- Errors are all that can go wrong, and they leave the stores alike. -/
def Failed (r : Resident) (e : Stop) (a : Attached Resident) (t : Table Binary32) : Prop :=
  (∃ err, e = .error err) ∧ Twin r a t

/-- An operation of the device, on a store. -/
theorem onDevice_replies {β : Type} {act : Resident → Exec Device β} {x : Except Error β}
    {P : Device → Prop} (h : (act r).Replies d x P) :
    (Attached.onDevice act).Replies (⟨r, d⟩ : Attached Resident) x
      fun a => a.handle = r ∧ P a.device := by
  cases x with
  | ok y =>
      refine Exec.Yields.view.gives (Exec.Gives.focus ?_)
      exact Exec.Gives.mono h fun y' d' hd' => ⟨hd'.1, rfl, hd'.2⟩
  | error e =>
      refine Exec.Yields.view.stops (Exec.Stops.focus ?_)
      exact Exec.Stops.mono h fun d' hd' => ⟨rfl, hd'⟩

/-- Two replies that are the same make one reply of the session. -/
theorem alike_of_replies {β : Type} {act : Resident → Exec Device β}
    {act' : Exec (Table Binary32) β} {x : Except Error β} {t' : Table Binary32}
    (h : (act r).Replies d x fun d' => ∃ c', r.Mirrors d' c' t')
    (h' : act'.Replies t x (· = t')) (f : β → BoundReply Binary32) (j j' : Journal) :
    Exec.Alike (fun _ => Twin r) (Failed r)
      ((do let y ← Attached.onDevice act; pure (f y)) ⟨⟨r, d⟩, j⟩)
      ((do let y ← act'; pure (f y)) ⟨t, j'⟩) := by
  have halike : Exec.Alike (fun _ => Twin r) (Failed r)
      (Attached.onDevice act ⟨⟨r, d⟩, j⟩) (act' ⟨t, j'⟩) := by
    refine Exec.Alike.of_replies (onDevice_replies h) h' ?_ ?_
    · rintro y a' _ - ha' rfl
      exact ha'
    · rintro e a' _ - ha' rfl
      exact ⟨⟨e, rfl⟩, ha'⟩
  exact halike.bind fun y u u' _ htwin => Exec.Alike.pure htwin

/-- One call. It changes the words and the table in the same way, or is refused by both for
    its index. -/
theorem Mirrors.perform_alike (h : r.Mirrors d c t) (call : BoundCall Binary32) (j j' : Journal) :
    Exec.Alike (fun _ => Twin r) (Failed r) (call.perform ⟨⟨r, d⟩, j⟩) (call.perform ⟨t, j'⟩) := by
  -- A question leaves the words as they are.
  have hread : ∀ d', r.Mirrors d' c t → ∃ c', r.Mirrors d' c' t := fun _ hd' => ⟨c, hd'⟩
  cases call with
  | numVars =>
      show Exec.Alike _ _ (EStateM.Result.ok (BoundReply.count r.numVars) _)
        (EStateM.Result.ok (BoundReply.count t.entries.size) _)
      rw [h.numVars]
      exact .ok ⟨rfl, c, h⟩
  | lower v =>
      have hside := h.readSide_replies v hasLower .lower fun e he => (h.entry v e he).lower
      exact alike_of_replies (hside.mono hread) (t.read_replies v _) .bound j j'
  | upper v =>
      have hside := h.readSide_replies v hasUpper .upper fun e he => (h.entry v e he).upper
      exact alike_of_replies (hside.mono hread) (t.read_replies v _) .bound j j'
  | setLower v x => exact alike_of_replies (h.setLower_replies v x) (t.change_replies v _) _ j j'
  | setUpper v x => exact alike_of_replies (h.setUpper_replies v x) (t.change_replies v _) _ j j'
  | setBounds v i =>
      exact alike_of_replies (h.writeBoth_replies v i) (t.setBounds_replies v i) _ j j'
  | assignment v =>
      exact alike_of_replies ((h.readValue_replies v).mono hread) (t.read_replies v _) .value j j'
  | setAssignment v x =>
      exact alike_of_replies (h.writeValue_replies v x) (t.change_replies v _) _ j j'
  | assignments n =>
      exact alike_of_replies ((h.readValues_replies n).mono hread) (t.assignments_replies n)
        .values j j'
  | role v =>
      exact alike_of_replies ((h.readRole_replies v).mono hread) (t.read_replies v _) .role j j'
  | setRole v role =>
      exact alike_of_replies (h.writeRole_replies v role) (t.change_replies v _) _ j j'

/-- One call whose error is a reply too. -/
theorem Twin.answer_alike {u : Traced (Attached Resident)} {u' : Traced (Table Binary32)}
    (h : Twin r u.state u'.state) (call : BoundCall Binary32) :
    Exec.Alike (fun _ => Twin r) (fun _ _ _ => False) (call.answer u) (call.answer u') := by
  rcases u with ⟨⟨_, d⟩, j⟩
  rcases u' with ⟨t, j'⟩
  rcases h with ⟨rfl, c, h⟩
  refine Exec.Alike.onError ((h.perform_alike call j j').bind fun _ _ _ _ htwin => ?_)
    (fun e _ _ hfailed => Exec.Alike.pure hfailed.2) fun e _ _ hne hfailed => ?_
  · exact Exec.Alike.pure htwin
  · rcases hfailed.1 with ⟨err, herr⟩
    exact hne err herr

/-- Calls, one after the other. As the device refuses nothing, no call stops the session. -/
theorem Mirrors.session_alike (h : r.Mirrors d c t) (calls : List (BoundCall Binary32))
    (j j' : Journal) :
    Exec.Alike (fun _ => Twin r) (fun _ _ _ => False) (BoundCall.session calls ⟨⟨r, d⟩, j⟩)
      (BoundCall.session calls ⟨t, j'⟩) :=
  Exec.Alike.mapM (fun call _ {_ _} htwin => htwin.answer_alike call) ⟨rfl, c, h⟩

/-! ### New stores -/

/-- The buffers in the order in which they are made, the newest first. -/
def Part.all : List Part := [.flags, .values, .bounded, .upper, .lower]

theorem Part.mem_all (s : Part) : s ∈ Part.all := by cases s <;> decide

theorem holds_of_keeps {kernels : Array (Option CompiledKernel)} {limits : Limits}
    {l : List (Buffer × Words)}
    (h : d.Keeps kernels limits (Part.all.map (fun s => (r.part s, c s)) ++ l))
    (hlength : ∀ s, (r.part s).length ≤ (c s).size) : d.Holds r.part c := by
  refine ⟨h.refuse, fun s => ?_, fun s t heq => ?_, hlength⟩
  · exact h.words _ (List.mem_append_left l (List.mem_map_of_mem s.mem_all))
  · have hdistinct := List.pairwise_map.mp (List.pairwise_append.mp h.distinct).1
    have hnodup : (Part.all.map fun s => (r.part s).id).Nodup := List.pairwise_map.mpr hdistinct
    exact List.inj_on_of_nodup_map hnodup s.mem_all t.mem_all heq

/-- What the buffers of a store with variables hold at first. -/
def Part.initial (numBasic numNonbasic : Nat) : Part → Words
  | .bounded => Array.replicate (numBasic + numNonbasic) hasLower
  | .flags => initialFlags numBasic numNonbasic
  | _ => zeros (numBasic + numNonbasic)

theorem tells_initial {numBasic numNonbasic v : Nat} (hv : v < numBasic + numNonbasic) :
    Tells (Part.initial numBasic numNonbasic) v ⟨.nonnegative, 0, .initial numNonbasic v⟩ := by
  have hmask : (Part.initial numBasic numNonbasic .bounded)[v]? = some hasLower := by
    rw [Part.initial, Array.getElem?_replicate, if_pos hv]
  have hset : ¬ hasLower &&& hasLower = 0 := by decide
  have hclear : hasLower &&& hasUpper = 0 := by decide
  refine ⟨?_, ?_, number?_zeros hv, ?_⟩
  · simp only [BoundView.side?, hmask, Option.bind_eq_bind, Option.bind_some, if_neg hset]
    exact congrArg (Option.map some) (number?_zeros hv)
  · simp only [BoundView.side?, hmask, Option.bind_eq_bind, Option.bind_some, if_pos hclear]
    rfl
  · exact getElem?_initialFlags hv

/-- A store without variables has a word in every buffer. -/
theorem allocate_zero_gives {kernels : Array (Option CompiledKernel)} {limits : Limits}
    {l : List (Buffer × Words)} (h : d.Keeps kernels limits l) :
    (allocate 0 0).Gives d fun r d' => r.numVars = 0 ∧ (∀ s, (r.part s).length = 0) ∧
      d'.Keeps kernels limits (Part.all.map (fun s => (r.part s, zeros 0)) ++ l) := by
  -- A buffer is never empty, so each of the five gets a word although nothing will be stored
  -- there.
  refine (h.zeroed_gives 0).bind ?_
  rintro lower d₁ ⟨hlower, h₁⟩
  refine Exec.Gives.guarded ((h₁.zeroed_gives 0).bind ?_)
  rintro upper d₂ ⟨hupper, h₂⟩
  refine Exec.Gives.guarded ((h₂.ofWords_empty_gives rfl).bind ?_)
  rintro bounded d₃ ⟨hbounded, h₃⟩
  refine Exec.Gives.guarded ((h₃.zeroed_gives 0).bind ?_)
  rintro values d₄ ⟨hvalues, h₄⟩
  refine Exec.Gives.guarded ((h₄.ofWords_empty_gives size_initialFlags).bind ?_)
  rintro flags d₅ ⟨hflags, h₅⟩
  refine Exec.Gives.pure ⟨rfl, fun s => ?_, h₅⟩
  cases s with
  | lower => exact hlower
  | upper => exact hupper
  | bounded => exact hbounded
  | values => exact hvalues
  | flags => exact hflags

/-- The buffers that are made on any device that is not refused anything. Their words tell
    the entries of a new table. -/
theorem allocate_mirrors (hd : d.refuse = none) (numBasic numNonbasic : Nat)
    (tolerance : Binary32) :
    (allocate numBasic numNonbasic).Gives d fun r d' =>
      ∃ c, r.Mirrors d' c (.initial numBasic numNonbasic tolerance) := by
  have hkeeps : d.Keeps d.host.kernels d.host.limits [] :=
    ⟨hd, rfl, rfl, fun q hq => absurd hq List.not_mem_nil, .nil⟩
  have hsize : (Table.initial numBasic numNonbasic tolerance).entries.size
      = numBasic + numNonbasic := by
    rw [Table.initial, Array.size_map, Array.size_range]
  -- Without variables the buffers still exist and have a word each, but no entry to tell of.
  by_cases hzero : numBasic + numNonbasic = 0
  · obtain ⟨rfl, rfl⟩ := Nat.add_eq_zero_iff.mp hzero
    refine (allocate_zero_gives hkeeps).mono ?_
    rintro r d' ⟨hvars, hlength, hd'⟩
    refine ⟨fun _ => zeros 0, holds_of_keeps hd' fun s => ?_, by rw [hvars, hsize], fun s => ?_,
      fun v e he => ?_⟩
    · rw [hlength]
      exact Nat.zero_le _
    · rw [hlength, hvars]
    · rw [Array.getElem?_eq_none (by omega)] at he
      cases he
  · refine (Parallel.allocate_gives hzero hkeeps).mono ?_
    rintro r d' ⟨hvars, hlower, hupper, hbounded, hvalues, hflags, hd'⟩
    -- One word per variable in each of the five.
    have hlength : ∀ s, (r.part s).length = numBasic + numNonbasic := by
      intro s
      cases s with
      | lower => exact hlower
      | upper => exact hupper
      | bounded => exact hbounded
      | values => exact hvalues
      | flags => exact hflags
    refine ⟨Part.initial numBasic numNonbasic, holds_of_keeps hd' fun s => ?_, by rw [hvars, hsize],
      fun s => by rw [hlength, hvars], fun v e he => ?_⟩
    · rw [hlength]
      cases s with
      | bounded => exact Nat.le_of_eq Array.size_replicate.symm
      | flags => exact Nat.le_of_eq size_initialFlags.symm
      | lower | upper | values => exact le_size_zeros _
    · have hv : v < numBasic + numNonbasic := by
        rw [← hsize]
        exact (Array.getElem?_eq_some_iff.mp he).1
      rw [Table.initial, Array.getElem?_map, Array.getElem?_range, if_pos hv] at he
      cases he
      exact tells_initial hv

end Resident

end Bounds

open Bounds in
/-- A new store on a device that nothing was refused of and a new table, with any
    number of variables, through any calls: all replies are the same, and what the
    kernels then read in the buffers are the bounds in the table. -/
theorem resident_refines_table (numBasic numNonbasic : Nat) (tolerance : Binary32) (h : HostDevice)
    (j j' : Journal) (calls : List (BoundCall Binary32)) :
    ∃ r d j₁, Resident.allocate numBasic numNonbasic ⟨.toHost h, j⟩ = .ok r ⟨d, j₁⟩
      ∧ ∃ replies d' j₂ t j₃,
        BoundCall.session calls (⟨⟨r, d⟩, j₁⟩ : Traced (Attached Resident))
          = .ok replies ⟨⟨r, d'⟩, j₂⟩
        ∧ BoundCall.session calls ⟨Table.initial numBasic numNonbasic tolerance, j'⟩
          = .ok replies ⟨t, j₃⟩
        ∧ t.entries.size = numBasic + numNonbasic
        ∧ ∃ lower upper bounded, d'.host.memory.words? r.lower.id = some lower
          ∧ d'.host.memory.words? r.upper.id = some upper
          ∧ d'.host.memory.words? r.bounded.id = some bounded
          ∧ ∀ v e, t.entries[v]? = some e →
            BoundView.side? lower bounded hasLower v = some e.interval.lower
            ∧ BoundView.side? upper bounded hasUpper v = some e.interval.upper := by
  have hrefuse := (Device.serves_toHost h).refuse
  rcases Resident.allocate_mirrors hrefuse numBasic numNonbasic tolerance j with
    ⟨r, d, j₁, hallocate, c, hmirrors⟩
  refine ⟨r, d, j₁, hallocate, ?_⟩
  have hsize : r.numVars = numBasic + numNonbasic := by
    rw [hmirrors.numVars, Table.initial, Array.size_map, Array.size_range]
  -- The session is compared call by call, with the words as the link between the two stores.
  have halike := hmirrors.session_alike calls j₁ j'
  generalize hrun : BoundCall.session calls (⟨⟨r, d⟩, j₁⟩ : Traced (Attached Resident)) = x
    at halike
  generalize hrun' : BoundCall.session calls
    ⟨Table.initial numBasic numNonbasic tolerance, j'⟩ = x' at halike
  cases halike with
  -- No call stops either session.
  | error hfalse => exact hfalse.elim
  | @ok replies u u' htwin =>
      rcases u with ⟨⟨_, d'⟩, j₂⟩
      rcases u' with ⟨t, j₃⟩
      rcases htwin with ⟨rfl, c', htwin⟩
      refine ⟨replies, d', j₂, t, j₃, rfl, rfl, htwin.numVars.symm.trans hsize, _, _, _,
        htwin.holds.words .lower, htwin.holds.words .upper, htwin.holds.words .bounded, ?_⟩
      exact fun v e he => ⟨(htwin.entry v e he).lower, (htwin.entry v e he).upper⟩

open Bounds in
/-- An upper bound that stays when the lower one is cleared, and an index out of
    range. -/
theorem resident_refines_table_of_cleared :
    ∃ r d j₁, Resident.allocate 1 1 ⟨.toHost (.idle { }), #[]⟩ = .ok r ⟨d, j₁⟩
      ∧ ∃ d' j₂, BoundCall.session [.setUpper 1 (some ⟨0x40a00000⟩), .setLower 1 none, .lower 1,
            .upper 1, .role 0, .setBounds 2 ⟨none, none⟩]
          (⟨⟨r, d⟩, j₁⟩ : Traced (Attached Resident))
        = .ok [.ok .done, .ok .done, .ok (.bound none), .ok (.bound (some ⟨0x40a00000⟩)),
            .ok (.role .nonbasic), .error (.indexOutOfBounds 2 2)] ⟨⟨r, d'⟩, j₂⟩
        ∧ ∃ upper bounded, d'.host.memory.words? r.upper.id = some upper
          ∧ d'.host.memory.words? r.bounded.id = some bounded
          ∧ BoundView.side? upper bounded hasUpper 1 = some (some ⟨0x40a00000⟩) := by
  rcases resident_refines_table 1 1 0 (.idle { }) #[] #[] [.setUpper 1 (some ⟨0x40a00000⟩),
      .setLower 1 none, .lower 1, .upper 1, .role 0, .setBounds 2 ⟨none, none⟩]
    with ⟨r, d, j₁, hallocate, replies, d', j₂, t, j₃, hdevice, htable, -, lower, upper, bounded, -,
      hupper, hbounded, hsides⟩
  -- The table is evaluated; what the buffers hold is concluded from it.
  have hend : Exec.endsWith
      (BoundCall.session ([.setUpper 1 (some ⟨0x40a00000⟩), .setLower 1 none, .lower 1, .upper 1,
        .role 0, .setBounds 2 ⟨none, none⟩] : List (BoundCall Binary32))
        ⟨Table.initial 1 1 (0 : Binary32), #[]⟩)
      (fun replies t => decide (replies = [.ok .done, .ok .done, .ok (.bound none),
          .ok (.bound (some ⟨0x40a00000⟩)), .ok (.role .nonbasic), .error (.indexOutOfBounds 2 2)]
        ∧ t.state.entries[1]? = some ⟨⟨none, some ⟨0x40a00000⟩⟩, 0, .basic⟩)) = true := by
    decide +kernel
  rcases Exec.exists_of_endsWith hend with ⟨_, _, hrun, htest⟩
  rcases of_decide_eq_true htest with ⟨rfl, hentry⟩
  rw [hrun] at htable
  cases htable
  exact ⟨r, d, j₁, hallocate, d', j₂, hdevice, upper, bounded, hupper, hbounded,
    (hsides 1 _ hentry).2⟩

end BoundedSimplex
