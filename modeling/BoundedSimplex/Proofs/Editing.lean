import BoundedSimplex.Proofs.Building
import BoundedSimplex.Proofs.Parallel

/-!
# Bounds on a Device

A bound that is set on a device is the bound the kernels read there.

A bound lies in two buffers, its value in one and a bit that says whether there
is a bound at all in another. Setting one bound writes the value and changes
its bit, and the bit of the other bound stays as it is. Setting both writes
two values and the whole mask. Bounds are set one variable at a time, so the
words of all other variables are as before.

## Main definitions

* `withBit`: A mask with one bit set or cleared.
* `BoundEdit.onDevice`: The transfers that set bounds.

## Theorems

* `BoundView.side?_of_mask`: A bound reads back what was written last.
* `BoundView.side?_of_and_eq`: The other bound reads as before.
* `Parallel.edit_gives`: The device after bounds were set.
-/

namespace BoundedSimplex

/-! ### Masks -/

/-- A mask with one bit set or cleared. -/
def withBit (mask bit : UInt32) (on : Bool) : UInt32 := if on then mask ||| bit else mask &&& ~~~bit

theorem or_and_distrib (x y z : UInt32) : (x ||| y) &&& z = (x &&& z) ||| (y &&& z) :=
  UInt32.toBitVec_inj.1 BitVec.and_or_distrib_right

theorem withBit_and_self {mask bit : UInt32} (h : bit ≠ 0) (on : Bool) :
    withBit mask bit on &&& bit = 0 ↔ on = false := by
  unfold withBit
  cases on with
  | false =>
      rw [if_neg Bool.false_ne_true, UInt32.and_assoc, UInt32.not_and_self, UInt32.and_zero]
      simp only
  | true =>
      rw [if_pos rfl, or_and_distrib, UInt32.and_self, UInt32.or_eq_zero_iff]
      simp only [h, and_false, Bool.true_eq_false]

theorem withBit_and_other (mask : UInt32) {bit other : UInt32} (h : bit &&& other = 0)
    (h' : ~~~bit &&& other = other) (on : Bool) :
    withBit mask bit on &&& other = mask &&& other := by
  unfold withBit
  cases on with
  | false => rw [if_neg Bool.false_ne_true, UInt32.and_assoc, h']
  | true => rw [if_pos rfl, or_and_distrib, h, UInt32.or_zero]

theorem boundMask_and_hasLower {α : Type} (i : Interval α) :
    boundMask i &&& hasLower = 0 ↔ i.lower.isSome = false := by
  unfold boundMask
  generalize i.lower.isSome = lower
  generalize i.upper.isSome = upper
  cases lower <;> cases upper <;> decide

theorem boundMask_and_hasUpper {α : Type} (i : Interval α) :
    boundMask i &&& hasUpper = 0 ↔ i.upper.isSome = false := by
  unfold boundMask
  generalize i.lower.isSome = lower
  generalize i.upper.isSome = upper
  cases lower <;> cases upper <;> decide

/-! ### Reading bounds -/

namespace BoundView

variable {view view' : BoundView} {values bounded : Words} {bit mask : UInt32} {v : Nat}

/-- Both bounds, from one and the other. -/
theorem interval?_eq_some_iff {i : Interval Binary32} : view.interval? v = some i ↔
    side? view.lower view.bounded hasLower v = some i.lower ∧
      side? view.upper view.bounded hasUpper v = some i.upper := by
  unfold interval?
  cases side? view.lower view.bounded hasLower v with
  | none => simp only [Option.bind_eq_bind, Option.bind_none, reduceCtorEq, false_and]
  | some lower =>
      cases side? view.upper view.bounded hasUpper v with
      | none => simp only [Option.bind_eq_bind, Option.bind_some, Option.bind_none, reduceCtorEq,
          and_false]
      | some upper =>
          rcases i with ⟨l, u⟩
          simp only [Option.bind_eq_bind, Option.bind_some, Option.some.injEq, Interval.mk.injEq]

/-- Only the words of the variable count. -/
theorem interval?_congr (hlower : view'.lower[v]? = view.lower[v]?)
    (hupper : view'.upper[v]? = view.upper[v]?) (hbounded : view'.bounded[v]? = view.bounded[v]?) :
    view'.interval? v = view.interval? v := by
  simp only [interval?, side?, Words.number?, hlower, hupper, hbounded]

theorem exists_mask {i : Interval Binary32} (h : view.interval? v = some i) :
    ∃ mask, view.bounded[v]? = some mask := by
  cases hmask : view.bounded[v]? with
  | none =>
      rw [interval?_eq_some_iff, side?, hmask] at h
      cases h.1
  | some mask => exact ⟨mask, rfl⟩

/-- A bound whose value was written, as its bit says. The word that was written only counts
    if the bit is set. -/
theorem side?_of_mask {x : Option Binary32} (hv : v < values.size) (hm : bounded[v]? = some mask)
    (hbit : mask &&& bit = 0 ↔ x.isSome = false) :
    side? (values.setIfInBounds v (Bounds.Resident.sideWord x)) bounded bit v = some x := by
  have hword : (values.setIfInBounds v (Bounds.Resident.sideWord x))[v]?
      = some (Bounds.Resident.sideWord x) := by
    rw [Array.getElem?_setIfInBounds, if_pos rfl, if_pos hv]
  unfold side?
  simp only [hm, Option.bind_eq_bind, Option.bind_some]
  cases x with
  | none => rw [if_pos (hbit.mpr rfl)]
  | some y =>
      have hset : ¬ mask &&& bit = 0 := fun hzero => Bool.noConfusion (hbit.mp hzero)
      rw [if_neg hset, Words.number?, hword]
      rfl

/-- The other bound reads as before, because its bit is the same and its word was not
    touched. -/
theorem side?_of_and_eq {bounded' : Words} {mask' : UInt32} (hm : bounded[v]? = some mask)
    (hm' : bounded'[v]? = some mask') (hbit : mask' &&& bit = mask &&& bit) :
    side? values bounded' bit v = side? values bounded bit v := by
  simp only [side?, hm, hm', Option.bind_eq_bind, Option.bind_some, hbit]

end BoundView

/-! ### Setting bounds -/

/-- The transfers that set bounds of a variable. -/
def BoundEdit.onDevice (r : Bounds.Resident) (v : Nat) : BoundEdit Binary32 → Exec Device Unit
  | .lower x => r.writeSide v hasLower r.lower x
  | .upper x => r.writeSide v hasUpper r.upper x
  | .both i => r.writeBoth v i

/-- The bounds of one variable were replaced, and nothing else. -/
theorem Contents.Variables.withInterval {c c' : Contents} {b : Board Binary32} {v : Nat}
    {i : Interval Binary32} (h : c.Variables b) (hvalues : c' .values = c .values)
    (hflags : c' .flags = c .flags) (hlower : (c' .lower).size = (c .lower).size)
    (hupper : (c' .upper).size = (c .upper).size)
    (hother : ∀ u, u ≠ v → ∀ s, s = .lower ∨ s = .upper ∨ s = .bounded → (c' s)[u]? = (c s)[u]?)
    (hnew : BoundView.interval? ⟨c' .lower, c' .upper, c' .bounded⟩ v = some i) :
    c'.Variables (b.withInterval v i) := by
  refine ⟨⟨fun u hu => ?_, ?_, ?_⟩, ?_, ?_⟩
  · simp only [Board.withInterval]
    -- The words of the variable itself give the new interval; those of every other one are the
    -- old words.
    by_cases huv : u = v
    · rw [if_pos huv, huv, hnew]
    · rw [if_neg huv, ← h.bounds.interval u hu]
      exact BoundView.interval?_congr (hother u huv _ (.inl rfl)) (hother u huv _ (.inr (.inl rfl)))
        (hother u huv _ (.inr (.inr rfl)))
  · rw [hlower]
    exact h.bounds.lower_size
  · rw [hupper]
    exact h.bounds.upper_size
  · rw [hvalues]
    exact h.values
  · rw [hflags]
    exact h.flags

namespace Parallel

variable {p : Parallel} {d : Device} {a : Wiring} {c : Contents} {b : Board Binary32}
  {width v : Nat}

theorem checkVar_gives (hf : p.Fits width b) (hv : v < b.numVars) :
    (p.bounds.check v).Gives d fun _ d' => d' = d :=
  Exec.Gives.check (if_pos (by rw [hf.boundVars]; exact hv)) rfl

/-- There is an element for the variable in each of the buffers for variables. -/
theorem Fits.lt_length (hf : p.Fits width b) (hv : v < b.numVars) {s : Slot}
    (hs : s.elements b.maxRows b.numCols (ceilDiv b.numCols width) = b.maxRows + b.numCols) :
    v < (p.slot s).length := by
  rw [hf.elements, hs, Nat.add_comm]
  exact hv

theorem writeSide_gives (hf : p.Fits width b) (hs : p.Sees d a c) (hv : v < b.numVars) {s : Slot}
    (hslot : s.elements b.maxRows b.numCols (ceilDiv b.numCols width) = b.maxRows + b.numCols)
    (hne : s ≠ .bounded) {mask : UInt32} (hmask : (c .bounded)[v]? = some mask) (bit : UInt32)
    (x : Option Binary32) :
    (p.bounds.writeSide v bit (p.slot s) x).Gives d fun _ d' => p.Sees d' a
      ((c.set s ((c s).setIfInBounds v (Bounds.Resident.sideWord x))).set .bounded
        ((c .bounded).setIfInBounds v (withBit mask bit x.isSome))) := by
  have hbounded : v < (p.slot .bounded).length := hf.lt_length hv rfl
  refine (checkVar_gives hf hv).bind ?_
  rintro _ d₁ rfl
  refine (hs.get_gives .bounded hbounded hmask).bind ?_
  rintro _ d₂ ⟨rfl, h₂⟩
  -- The word of the side is written before the bit that says it counts.
  refine (h₂.set_gives s (hf.lt_length hv hslot) _).bind fun _ d₃ h₃ => ?_
  refine (h₃.set_gives .bounded hbounded _).mono fun _ d₄ h₄ => ?_
  rw [Contents.set_other (Ne.symm hne)] at h₄
  exact h₄

theorem writeBoth_gives (hf : p.Fits width b) (hs : p.Sees d a c) (hv : v < b.numVars)
    (i : Interval Binary32) :
    (p.bounds.writeBoth v i).Gives d fun _ d' => p.Sees d' a
      (((c.set .lower ((c .lower).setIfInBounds v (Bounds.Resident.sideWord i.lower))).set .upper
        ((c .upper).setIfInBounds v (Bounds.Resident.sideWord i.upper))).set .bounded
          ((c .bounded).setIfInBounds v (boundMask i))) := by
  refine (checkVar_gives hf hv).bind ?_
  rintro _ d₁ rfl
  refine (hs.set_gives .lower (hf.lt_length hv rfl) _).bind fun _ d₂ h₂ => ?_
  refine (h₂.set_gives .upper (hf.lt_length hv rfl) _).bind fun _ d₃ h₃ => ?_
  refine (h₃.set_gives .bounded (hf.lt_length hv rfl) _).mono fun _ d₄ h₄ => ?_
  simp only [ne_eq, reduceCtorEq, not_false_eq_true, Contents.set_other] at h₄
  exact h₄

/-- The device holds the bounds that were set, and what it held before. Which transfers were
    needed for it does not show in the end. -/
theorem edit_gives (hf : p.Fits width b) (hs : p.Sees d a c) (hvars : c.Variables b)
    (hv : v < b.numVars) (e : BoundEdit Binary32) :
    (e.onDevice p.bounds v).Gives d fun _ d' => ∃ c', p.Sees d' a c' ∧
      c'.Variables (b.withInterval v (e.on (b.interval v))) := by
  have hinterval := hvars.bounds.interval v hv
  rcases BoundView.exists_mask hinterval with ⟨mask, hmask⟩
  rcases BoundView.interval?_eq_some_iff.mp hinterval with ⟨hlower, hupper⟩
  have hlowerSize : v < (c .lower).size := Nat.lt_of_lt_of_le hv hvars.bounds.lower_size
  have hupperSize : v < (c .upper).size := Nat.lt_of_lt_of_le hv hvars.bounds.upper_size
  -- The mask is read before it is written, so there is one.
  have hmask' : ∀ m, ((c .bounded).setIfInBounds v m)[v]? = some m := by
    intro m
    rcases Array.getElem?_eq_some_iff.mp hmask with ⟨hsize, -⟩
    rw [Array.getElem?_setIfInBounds, if_pos rfl, if_pos hsize]
  cases e with
  | lower x =>
      have hwrite := writeSide_gives hf hs hv (s := .lower) rfl (by decide) hmask hasLower x
      refine hwrite.mono fun _ d' hd' => ⟨_, hd', hvars.withInterval ?_ ?_ ?_ ?_ ?_ ?_⟩
      · simp
      · simp
      · simp
      · simp
      · rintro u huv s (rfl | rfl | rfl)
        all_goals simp [Ne.symm huv]
      · refine BoundView.interval?_eq_some_iff.mpr ⟨?_, ?_⟩
        · exact BoundView.side?_of_mask hlowerSize (hmask' _) (withBit_and_self (by decide) _)
        · have hbit := withBit_and_other mask (show hasLower &&& hasUpper = 0 by decide)
            (by decide) x.isSome
          exact (BoundView.side?_of_and_eq hmask (hmask' _) hbit).trans hupper
  | upper x =>
      have hwrite := writeSide_gives hf hs hv (s := .upper) rfl (by decide) hmask hasUpper x
      refine hwrite.mono fun _ d' hd' => ⟨_, hd', hvars.withInterval ?_ ?_ ?_ ?_ ?_ ?_⟩
      · simp
      · simp
      · simp
      · simp
      · rintro u huv s (rfl | rfl | rfl)
        all_goals simp [Ne.symm huv]
      · refine BoundView.interval?_eq_some_iff.mpr ⟨?_, ?_⟩
        · have hbit := withBit_and_other mask (show hasUpper &&& hasLower = 0 by decide)
            (by decide) x.isSome
          exact (BoundView.side?_of_and_eq hmask (hmask' _) hbit).trans hlower
        · exact BoundView.side?_of_mask hupperSize (hmask' _) (withBit_and_self (by decide) _)
  | both i =>
      refine (writeBoth_gives hf hs hv i).mono fun _ d' hd' =>
        ⟨_, hd', hvars.withInterval ?_ ?_ ?_ ?_ ?_ ?_⟩
      · simp
      · simp
      · simp
      · simp
      · rintro u huv s (rfl | rfl | rfl)
        all_goals simp [Ne.symm huv]
      · refine BoundView.interval?_eq_some_iff.mpr ⟨?_, ?_⟩
        · exact BoundView.side?_of_mask hlowerSize (hmask' _) (boundMask_and_hasLower i)
        · exact BoundView.side?_of_mask hupperSize (hmask' _) (boundMask_and_hasUpper i)

end Parallel

end BoundedSimplex
