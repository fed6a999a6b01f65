import BoundedSimplex.Proofs.Transfers

/-!
# Bounds That Are Set in Any Order

Calls that set bounds, as changes of a store that commute.

A call that sets bounds either does what it has to do or changes nothing, and what
it does depends on nothing but its arguments. So it is a change of the store, and
the question in which order two calls are made is whether two changes commute.
They do if no bound is set by both.

In a table that is plain. On a device both bounds of a variable share a word, which
a call reads, changes and writes back. Two calls then leave the bits that each of
them set, since each leaves the bit of the other one alone. The device counts the
transfers, and they are the same in number.

## Main definitions

* `BoundEdit.Apart`, `BuildCall.Apart`: Calls that have nothing in common.
* `BoundStore.Edits`: A store in which setting bounds is a change that commutes.
* `Bounds.Resident.Served`: Buffers on a device that refuses nothing.

## Theorems

* `BoundStore.Edits.ofPart`: A store that is a part of something larger.
* `Bounds.Table.edits`, `Bounds.Resident.edits`: Both stores are of this kind.
* `Device.edited_comm`: The device after two calls, with all that it counts.
-/

namespace BoundedSimplex

open Exec

/-! ### Calls that write different things -/

namespace BoundEdit

variable {α : Type} {e e' : BoundEdit α}

/-- The change sets or clears the lower bound. -/
def SetsLower : BoundEdit α → Prop
  | .upper _ => False
  | _ => True

/-- The change sets or clears the upper bound. -/
def SetsUpper : BoundEdit α → Prop
  | .lower _ => False
  | _ => True

/-- Two changes that have no bound in common. They may well be about one variable, if one is
    about its lower and the other about its upper bound. -/
def Apart (e e' : BoundEdit α) : Prop :=
  ¬ (e.SetsLower ∧ e'.SetsLower) ∧ ¬ (e.SetsUpper ∧ e'.SetsUpper)

theorem Apart.symm (h : e.Apart e') : e'.Apart e :=
  ⟨fun hboth => h.1 hboth.symm, fun hboth => h.2 hboth.symm⟩

/-- One of them changes the lower bound and the other one the upper bound. -/
theorem Apart.cases (h : e.Apart e') :
    (∃ x y, e = .lower x ∧ e' = .upper y) ∨ ∃ x y, e = .upper x ∧ e' = .lower y := by
  -- An edit of both sides is apart from nothing, and two edits of one side are not apart.
  cases e with
  | lower x =>
      cases e' with
      | lower _ | both _ => exact absurd ⟨trivial, trivial⟩ h.1
      | upper y => exact .inl ⟨x, y, rfl, rfl⟩
  | upper x =>
      cases e' with
      | lower y => exact .inr ⟨x, y, rfl, rfl⟩
      | upper _ | both _ => exact absurd ⟨trivial, trivial⟩ h.2
  | both i =>
      cases e' with
      | lower _ | both _ => exact absurd ⟨trivial, trivial⟩ h.1
      | upper _ => exact absurd ⟨trivial, trivial⟩ h.2

/-- In either order both bounds are as they were set. -/
theorem Apart.on_comm (h : e.Apart e') (i : Interval α) : e'.on (e.on i) = e.on (e'.on i) := by
  rcases h.cases with ⟨x, y, rfl, rfl⟩ | ⟨x, y, rfl, rfl⟩ <;> rfl

end BoundEdit

/-- Two calls that do not both add a constraint and do not both set or clear the
    same bound of the same variable. -/
def BuildCall.Apart {α : Type} : BuildCall α → BuildCall α → Prop
  | .constraint _, .constraint _ => False
  | .bounds v e, .bounds v' e' => v = v' → e.Apart e'
  | _, _ => True

theorem BuildCall.Apart.symm {α : Type} {c c' : BuildCall α} (h : c.Apart c') : c'.Apart c := by
  cases c with
  | constraint _ =>
      cases c' with
      | constraint _ => exact h
      | bounds _ _ => trivial
  | bounds v e =>
      cases c' with
      | constraint _ => trivial
      | bounds v' e' => exact fun hv => (h hv.symm).symm

/-! ### Stores -/

/-- Setting bounds is a change of the store, which has no effect but this one. Changes that
    have no bound in common commute. A variable that does not exist is refused, and the
    store is then as it was. -/
structure BoundStore.Edits {σ α : Type} [BoundStore σ α] (Fine : σ → Prop)
    (after : Nat → BoundEdit α → σ → σ) : Prop where
  done : ∀ {b v} (e : BoundEdit α) (j : Journal), Fine b → v < numVars b →
    (e.inStore v : Exec σ Unit) ⟨b, j⟩ = .ok () ⟨after v e b, j⟩
  refused : ∀ {b v} (e : BoundEdit α) (j : Journal), Fine b → numVars b ≤ v →
    (e.inStore v : Exec σ Unit) ⟨b, j⟩ = .error (.error (.indexOutOfBounds v (numVars b))) ⟨b, j⟩
  fine : ∀ {b} v e, Fine b → Fine (after v e b)
  numVars : ∀ b v e, numVars (after v e b) = numVars b
  comm : ∀ {b v v' e e'}, Fine b → (v = v' → e.Apart e') →
    after v' e' (after v e b) = after v e (after v' e' b)

/-- A change of bounds in a store that is a part of something larger. -/
theorem BoundEdit.inStore_ofPart {σ τ α : Type} [BoundStore σ α] (get : τ → σ) (set : σ → τ → τ)
    (e : BoundEdit α) (v : Nat) :
    @BoundEdit.inStore τ α (.ofPart get set) v e = Exec.focus get set (e.inStore v) := by
  cases e <;> rfl

/-- It is a change of the larger store. An engine keeps its bounds in a part of its own, and
    setting them leaves the rest of it alone. -/
theorem BoundStore.Edits.ofPart {σ τ α : Type} [BoundStore σ α] {Fine : σ → Prop}
    {after : Nat → BoundEdit α → σ → σ} (h : Edits Fine after) (get : τ → σ) (set : σ → τ → τ)
    (hget : ∀ v e t, get (set (after v e (get t)) t) = after v e (get t))
    (hset : ∀ s s' t, set s' (set s t) = set s' t) (hsame : ∀ t, set (get t) t = t) :
    @Edits τ α (.ofPart get set) (fun t => Fine (get t))
      fun v e t => set (after v e (get t)) t := by
  -- The store of the part gives the larger one its operations, so each field follows by the lens
  -- laws `hget`, `hset` and `hsame`.
  let _ : BoundStore τ α := .ofPart get set
  refine ⟨fun e j hfine hv => ?_, fun e j hfine hv => ?_, fun v e hfine => ?_, fun t v e => ?_,
    fun hfine hapart => ?_⟩
  · rw [BoundEdit.inStore_ofPart]
    exact Exec.focus_ok (t := ⟨_, j⟩) (h.done e j hfine hv)
  · rw [BoundEdit.inStore_ofPart]
    refine (Exec.focus_error (t := ⟨_, j⟩) (h.refused e j hfine hv)).trans ?_
    rw [hsame]
    rfl
  · rw [hget]
    exact h.fine v e hfine
  · show BoundStore.numVars (get (set _ t)) = BoundStore.numVars (get t)
    rw [hget]
    exact h.numVars (get t) v e
  · rw [hget, hget, hset, hset, h.comm hfine hapart]

/-! #### The table -/

namespace Bounds.Table

variable {α : Type} {t : Table α} {v : Nat}

/-- The table after a change of bounds. -/
def edited (v : Nat) (e : BoundEdit α) (t : Table α) : Table α :=
  t.changed v fun en => { en with interval := e.on en.interval }

theorem change_of_lt (hv : v < t.entries.size) (f : Variable α → Variable α) (j : Journal) :
    change v f ⟨t, j⟩ = .ok () ⟨t.changed v f, j⟩ := by
  unfold change
  rw [bind_ok (show Exec.state ⟨t, j⟩ = .ok t ⟨t, j⟩ from rfl), Error.checkIndex, if_pos hv]
  rfl

theorem change_of_le (hv : t.entries.size ≤ v) (f : Variable α → Variable α) (j : Journal) :
    change v f ⟨t, j⟩ = .error (.error (.indexOutOfBounds v t.entries.size)) ⟨t, j⟩ := by
  unfold change
  rw [bind_ok (show Exec.state ⟨t, j⟩ = .ok t ⟨t, j⟩ from rfl), Error.checkIndex,
    if_neg (Nat.not_lt_of_le hv)]
  rfl

/-- Changes of different variables commute, and so do changes of one variable that
    commute. -/
theorem changed_comm {v' : Nat} {f g : Variable α → Variable α}
    (h : v = v' → ∀ en, f (g en) = g (f en)) :
    (t.changed v f).changed v' g = (t.changed v' g).changed v f :=
  congrArg (Table.mk · t.tolerance) (modify_comm t.entries h)

/-- Two changes of one variable are one. -/
theorem changed_changed (f g : Variable α → Variable α) :
    (t.changed v f).changed v g = t.changed v fun en => g (f en) := by
  refine congrArg (Table.mk · t.tolerance) (Array.ext_getElem? fun u => ?_)
  simp only [changed, Array.getElem?_modify]
  by_cases hu : v = u
  · simp only [if_pos hu, Option.map_map]
    rfl
  · simp only [if_neg hu]

variable [Scalar α]

theorem edits : BoundStore.Edits (σ := Table α) (fun _ => True) edited where
  done := by
    intro t v e j _ hv
    cases e with
    | lower x => exact change_of_lt hv _ j
    | upper x => exact change_of_lt hv _ j
    | both i =>
        refine (bind_ok (change_of_lt hv _ j)).trans ((change_of_lt ?_ _ j).trans ?_)
        · rw [size_changed]
          exact hv
        · rw [changed_changed]
          rfl
  refused := by
    intro t v e j _ hv
    cases e with
    | lower x => exact change_of_le hv _ j
    | upper x => exact change_of_le hv _ j
    | both i => exact bind_error (change_of_le hv _ j)
  fine _ _ _ := trivial
  numVars t v e := t.size_changed v _
  comm := by
    intro t v v' e e' _ hapart
    refine changed_comm fun hv en => ?_
    rw [(hapart hv).on_comm]

end Bounds.Table

/-! #### The buffers -/

namespace Bounds.Resident

variable {r : Resident} {m : Memory} {v v' : Nat}

/-- Changes of words commute if those of one word do. Changes of different variables meet in
    no word at all, since two parts never share a buffer. -/
theorem InMemory.change_comm (h : r.InMemory m) {l l' : WordChanges}
    (hcomm : v = v' → ∀ c ∈ l, ∀ c' ∈ l', c.1 = c'.1 → ∀ w, c.2 (c'.2 w) = c'.2 (c.2 w)) :
    r.change v' l' (r.change v l m) = r.change v l (r.change v' l' m) := by
  -- One change of a word first: it passes every change of the other list in turn.
  have hone : ∀ {c : Part × (UInt32 → UInt32)} {l' : WordChanges} {m : Memory}, r.InMemory m →
      (v = v' → ∀ c' ∈ l', c.1 = c'.1 → ∀ w, c.2 (c'.2 w) = c'.2 (c.2 w)) →
      r.change v' l' (m.modifyWord (r.part c.1).id v c.2)
        = (r.change v' l' m).modifyWord (r.part c.1).id v c.2 := by
    intro c l'
    induction l' with
    | nil => exact fun _ _ => rfl
    | cons c' l' ih =>
        intro m hm hc
        have hswap : (m.modifyWord (r.part c.1).id v c.2).modifyWord (r.part c'.1).id v' c'.2
            = (m.modifyWord (r.part c'.1).id v' c'.2).modifyWord (r.part c.1).id v c.2 :=
          m.modifyWord_comm fun hid hv => hc hv c' List.mem_cons_self (hm.inj _ _ hid)
        show r.change v' l' ((m.modifyWord _ v c.2).modifyWord _ v' c'.2) = _
        rw [hswap]
        exact ih (hm.modifyWord _ _ _) fun hv d hd => hc hv d (List.mem_cons_of_mem c' hd)
  -- And then a whole list of them passes the other one, by induction on the first.
  induction l generalizing m with
  | nil => rfl
  | cons c l ih =>
      have hfirst : r.change v' l' (m.modifyWord (r.part c.1).id v c.2)
          = (r.change v' l' m).modifyWord (r.part c.1).id v c.2 :=
        hone h fun hv => hcomm hv c List.mem_cons_self
      show r.change v' l' (r.change v l (m.modifyWord (r.part c.1).id v c.2)) = _
      rw [ih (h.modifyWord _ _ _) fun hv d hd => hcomm hv d (List.mem_cons_of_mem c hd), hfirst]
      rfl

end Bounds.Resident

/-- What two calls with no bound in common make of a word. Both change the mask. -/
theorem BoundEdit.Apart.changes_comm {e e' : BoundEdit Binary32} (h : e.Apart e') :
    ∀ c ∈ e.changes, ∀ c' ∈ e'.changes, c.1 = c'.1 → ∀ w, c.2 (c'.2 w) = c'.2 (c.2 w) := by
  have hmask : ∀ x y w, withBit (withBit w hasUpper y) hasLower x
      = withBit (withBit w hasLower x) hasUpper y :=
    fun x y w => withBit_comm w (by decide) (by decide) y x
  rcases h.cases with ⟨x, y, rfl, rfl⟩ | ⟨x, y, rfl, rfl⟩
  · simp only [changes, List.forall_mem_cons, List.not_mem_nil, false_imp_iff, implies_true,
      and_true, reduceCtorEq, true_imp_iff, true_and]
    exact fun w => hmask _ _ w
  · simp only [changes, List.forall_mem_cons, List.not_mem_nil, false_imp_iff, implies_true,
      and_true, reduceCtorEq, true_imp_iff, true_and]
    exact fun w => (hmask _ _ w).symm

namespace Device

variable {r : Bounds.Resident} {d : Device} {v v' : Nat} {e e' : BoundEdit Binary32}

/-- What was counted does not depend on the order either. A call makes as many transfers as
    it makes, whatever came before it. -/
theorem edited_comm (h : r.InMemory d.host.memory) (hapart : v = v' → e.Apart e') :
    (d.edited r v e).edited r v' e' = (d.edited r v' e').edited r v e := by
  have hmemory : r.change v' e'.changes (r.change v e.changes d.host.memory)
      = r.change v e.changes (r.change v' e'.changes d.host.memory) :=
    h.change_comm fun hv => (hapart hv).changes_comm
  unfold edited partly
  simp only [List.take_length, hmemory]
  cases e <;> cases e' <;> rfl

end Device

namespace Bounds.Resident

/-- The buffers are on the device, and it refuses nothing. Both are needed for a call to
    have its whole effect. -/
structure Served (a : Attached Resident) : Prop where
  inMemory : a.handle.InMemory a.device.host.memory
  refuse : a.device.refuse = none

/-- The device after a change of bounds. -/
def edited (v : Nat) (e : BoundEdit Binary32) (a : Attached Resident) : Attached Resident :=
  ⟨a.handle, a.device.edited a.handle v e⟩

theorem edits : BoundStore.Edits Served edited where
  done := by
    intro a v e j ha hv
    rw [e.inStore_resident]
    have hcall : e.onDevice a.handle v ⟨a.device, j⟩
        = .ok () ⟨a.device.edited a.handle v e, j⟩ := by
      have hcomes := BoundEdit.onDevice_comes ha.inMemory e v j
      generalize e.onDevice a.handle v ⟨a.device, j⟩ = x at hcomes ⊢
      cases hcomes with
      | outside hle => exact absurd hv (Nat.not_lt_of_le hle)
      | done _ => rfl
      | refused _ hrefuse => exact nomatch ha.refuse.symm.trans hrefuse
    exact (bind_ok rfl).trans (focus_ok (t := ⟨a, j⟩) hcall)
  refused := by
    intro a v e j ha hv
    rw [e.inStore_resident]
    have hcall : e.onDevice a.handle v ⟨a.device, j⟩
        = .error (.error (.indexOutOfBounds v a.handle.numVars)) ⟨a.device, j⟩ := by
      have hcomes := BoundEdit.onDevice_comes ha.inMemory e v j
      generalize e.onDevice a.handle v ⟨a.device, j⟩ = x at hcomes ⊢
      cases hcomes with
      | outside _ => rfl
      | done hlt => exact absurd hlt (Nat.not_lt_of_le hv)
      | refused hlt => exact absurd hlt (Nat.not_lt_of_le hv)
    exact (bind_ok rfl).trans (focus_error (t := ⟨a, j⟩) hcall)
  fine v e ha := ⟨ha.inMemory.change v _, ha.refuse⟩
  numVars _ _ _ := rfl
  comm ha hapart := congrArg (Attached.mk _) (Device.edited_comm ha.inMemory hapart)

end Bounds.Resident

end BoundedSimplex
