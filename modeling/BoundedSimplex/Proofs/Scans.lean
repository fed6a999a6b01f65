import BoundedSimplex.Proofs.Body
import BoundedSimplex.Kernel.Scan
import BoundedSimplex.Engine.Geometry

/-!
# Scans

A scan lowers one word to the lowest variable that qualifies.

The work items of a launch look at one variable each, and every one that
qualifies lowers the output to its own number. So after a launch the output
holds the lowest of what it held before and of the variables of the chunk that
qualify, `lowered`. The chunks follow one another without a gap and without
reaching beyond the last variable, so that a scan of all of them finds what a
scan of all variables finds.

What it means to qualify is read off the buffers. The two kernels say of a
variable what the host says of it, as long as the buffers hold what the host
takes them to hold.

## Main definitions

* `lowestIn`: The lowest variable of a range that qualifies.
* `lowered`: What a launch leaves in the output.

## Theorems

* `Kernel.lowerOutput_eq`: The work items of a scan.
* `lowestIn_append`: Chunks that follow one another.
* `Kernel.checkBounds_eq`, `Kernel.findSuitable_eq`: The two scans.
* `Kernel.findSuitableComplete_eq`: The correction of a pair of variables.
-/

namespace BoundedSimplex

/-- The lowest variable from `first` up to `last` that qualifies. It is what a launch over
    this chunk is to find. -/
def lowestIn (q : Nat → Bool) (first last : Nat) : Option Nat :=
  (List.range' first (last - first)).find? q

/-- A word that is lowered to a variable, if there is one. The output begins with a number
    that no variable has. -/
def lowered (found : Option Nat) (w : UInt32) : UInt32 := found.elim w fun v => min w v.toUInt32

theorem lowestIn_eq_some {q : Nat → Bool} {first last v : Nat}
    (h : lowestIn q first last = some v) :
    first ≤ v ∧ v < last ∧ q v = true := by
  have hmem := List.mem_range'_1.mp (List.mem_of_find?_eq_some h)
  exact ⟨hmem.1, by omega, List.find?_some h⟩

/-- Chunks that follow one another. The lowest variable of the first one counts, and the
    second is looked at only if there is none. -/
theorem lowestIn_append (q : Nat → Bool) {first middle last : Nat} (h : first ≤ middle)
    (h' : middle ≤ last) :
    lowestIn q first last = (lowestIn q first middle).or (lowestIn q middle last) := by
  have hsplit : List.range' first (last - first)
      = List.range' first (middle - first) ++ List.range' middle (last - middle) := by
    have happ := List.range'_append_1 (s := first) (m := middle - first) (n := last - middle)
    rw [Nat.add_sub_cancel' h] at happ
    rw [happ]
    congr 1
    omega
  rw [lowestIn, hsplit, List.find?_append]
  rfl

theorem lowestIn_of_le (q : Nat → Bool) {first last : Nat} (h : last ≤ first) :
    lowestIn q first last = none := by
  rw [lowestIn, Nat.sub_eq_zero_of_le h]
  rfl

/-- A chunk may reach beyond the last variable. -/
theorem lowestIn_chunk (q : Nat → Bool) {first last : Nat} (size : Nat) (h : first ≤ last) :
    lowestIn q first last
      = (lowestIn q first (min (first + size) last)).or (lowestIn q (first + size) last) := by
  rw [lowestIn_append q (Nat.le_min.mpr ⟨Nat.le_add_right first size, h⟩) (Nat.min_le_right _ _)]
  by_cases hend : first + size ≤ last
  · rw [Nat.min_eq_left hend]
  · have hle : last ≤ first + size := by omega
    rw [Nat.min_eq_right hle, lowestIn_of_le q (Nat.le_refl last), lowestIn_of_le q hle]

theorem toNat_toUInt32 {n : Nat} (h : n < UInt32.size) : n.toUInt32.toNat = n :=
  UInt32.toNat_ofNat_of_lt' h

theorem lowered_none (w : UInt32) : lowered none w = w := rfl

/-- Only lower variables show. -/
theorem lowered_some {v : Nat} {w : UInt32} (hv : v < w.toNat) :
    lowered (some v) w = v.toUInt32 := by
  have hsize : v < UInt32.size := Nat.lt_trans hv w.toNat_lt
  have hnot : ¬ w ≤ v.toUInt32 := by
    rw [UInt32.le_iff_toNat_le, toNat_toUInt32 hsize]
    omega
  exact if_neg hnot

/-- The first of two variables is the one that shows. -/
theorem lowered_lowered {v u : Nat} (hvu : v ≤ u) (hu : u < UInt32.size) (w : UInt32) :
    lowered (some u) (lowered (some v) w) = lowered (some v) w := by
  refine if_pos ?_
  show min w v.toUInt32 ≤ u.toUInt32
  have hle : v.toUInt32 ≤ u.toUInt32 := by
    rw [UInt32.le_iff_toNat_le, toNat_toUInt32 hu, toNat_toUInt32 (Nat.lt_of_le_of_lt hvu hu)]
    exact hvu
  by_cases hw : w ≤ v.toUInt32
  · rw [show min w v.toUInt32 = w from if_pos hw]
    exact UInt32.le_trans hw hle
  · rw [show min w v.toUInt32 = v.toUInt32 from if_neg hw]
    exact hle

/-- Every flag stands for one role. -/
theorem Role.flag_eq_iff {r s : Role} : r.flag = s.flag ↔ r = s := by
  cases r <;> cases s <;> decide

/-- Bounds that can be read, for the first `n` variables. The tables may be longer than
    that. -/
structure BoundView.Shows (view : BoundView) (n : Nat) (i : Nat → Interval Binary32) : Prop where
  interval : ∀ v < n, view.interval? v = some (i v)
  lower_size : n ≤ view.lower.size
  upper_size : n ≤ view.upper.size

namespace Kernel

/-- A word of the output that is changed twice. -/
theorem modify_modify (out : Words) (i : Nat) (f g : UInt32 → UInt32) :
    (out.modify i f).modify i g = out.modify i (g ∘ f) := by
  refine Array.ext_getElem? fun j => ?_
  simp only [Array.getElem?_modify]
  by_cases hij : i = j
  · rw [if_pos hij, if_pos hij, if_pos hij, Option.map_map]
  · rw [if_neg hij, if_neg hij, if_neg hij]

theorem modify_id (out : Words) (i : Nat) : out.modify i (fun w => w) = out := by
  refine Array.ext_getElem? fun j => ?_
  rw [Array.getElem?_modify]
  by_cases hij : i = j
  · rw [if_pos hij, Option.map_id']
  · rw [if_neg hij]

/-- The work items of a scan leave the lowest variable that qualifies. Each of them takes a
    minimum, so their order would make no difference. -/
theorem lowerOutput_eq {first last : Nat} {qualifies : Nat → Body Bool} {q : Nat → Bool}
    (hq : ∀ v, first ≤ v → v < last → qualifies v = pure (q v)) (hlast : last ≤ UInt32.size)
    (out : Words) :
    lowerOutput first last qualifies out
      = .ok () (out.modify 0 (lowered (lowestIn q first last))) := by
  rw [lowerOutput, lowestIn]
  have hend : first + (last - first) ≤ max first last := by omega
  generalize last - first = n at hend ⊢
  -- Induction on the number of items. Each one writes the minimum of the word and its index, so
  -- what is left in the end is the minimum of all.
  induction n generalizing first out with
  | zero => exact congrArg (EStateM.Result.ok ()) (modify_id out 0).symm
  | succ n ih =>
      have hitem : lowerTo qualifies first = if q first then
          Body.write fun out => out.modify 0 fun w => min w first.toUInt32 else pure () := by
        rw [lowerTo, hq first (Nat.le_refl _) (by omega), pure_bind]
      rw [List.range'_succ, List.find?_cons]
      cases hfirst : q first with
      | false =>
          rw [hfirst, if_neg (by decide)] at hitem
          have hskip : lowerTo qualifies first out = .ok () out := congrFun hitem out
          refine (Body.bind_ok hskip).trans ?_
          exact ih (fun v hv hv' => hq v (by omega) hv') out (by omega)
      | true =>
          rw [hfirst, if_pos rfl] at hitem
          refine (Body.bind_ok (congrFun hitem out)).trans ?_
          refine (ih (fun v hv hv' => hq v (by omega) hv') _ (by omega)).trans ?_
          rw [modify_modify]
          -- A later hit is a larger index, so writing it afterwards changes nothing.
          congr 2
          funext w
          cases hrest : (List.range' (first + 1) n).find? q with
          | none => rfl
          | some u =>
              have hmem := List.mem_range'_1.mp (List.mem_of_find?_eq_some hrest)
              exact lowered_lowered (by omega) (by omega) w

/-! ### The two scans -/

section Scans

variable {inv : Invocation} {m : Memory} {w : Nat → Words} {i : Nat → Interval Binary32}
  {x : Nat → Binary32} {r : Nat → Role}

/-- The lowest broken basic variable of a chunk. The kernel reads the words that are said to
    hold bounds, values and flags, and writes the first word of the output. -/
theorem checkBounds_eq (h : inv.Finds m 6 5 w) {n offset : Nat}
    {tolerance : Binary32} (hn : inv.nat 0 = n) (ho : inv.nat 1 = offset)
    (ht : inv.number 2 = tolerance) {span : Nat} (hx : inv.size.spanX = span)
    (hbounds : BoundView.Shows ⟨w 0, w 1, w 2⟩ n i)
    (hvalues : ∀ v < n, (w 3).number? v = some (x v))
    (hflags : ∀ v < n, (w 4)[v]? = some (r v).flag) (hout : 0 < (w 5).size) :
    checkBounds inv m = (.ok (), m.store (inv.buffer 5) ((w 5).modify 0 (lowered
      (lowestIn (fun v => decide (r v = .basic) && (i v).isBroken tolerance (x v))
        offset (min (offset + span) n))))) := by
  subst hn ho ht hx
  have hvaluesSize := Words.le_size_of_numbers hvalues
  have hflagsSize := Words.le_size fun v hv => by rw [hflags v hv]; rfl
  unfold checkBounds
  refine h.withOutput_eq ?_
  rw [h.read_eq (by omega) (by omega), h.input_eq (by omega) (by omega),
    h.input_eq (by omega) (by omega)]
  simp only [pure_bind]
  rw [Invocation.need_eq (Nat.le_min.mpr ⟨hbounds.lower_size, hbounds.upper_size⟩), pure_bind,
    Invocation.need_eq (Nat.le_min.mpr ⟨hvaluesSize, hflagsSize⟩), pure_bind, Body.output_bind,
    Invocation.need_eq hout, pure_bind]
  -- The item of a variable computes the predicate, and nothing it reads is missing.
  refine lowerOutput_eq (fun v _ hv => ?_) ?_ (w 5)
  · have hlt : v < inv.nat 0 := by omega
    simp only [hflags v hlt, hvalues v hlt, hbounds.interval v hlt, Body.entry_some, pure_bind,
      Role.flag_eq_iff, ne_eq]
    by_cases hr : r v = .basic
    · rw [if_neg (not_not_intro hr), decide_eq_true hr, Bool.true_and]
    · rw [if_pos hr, decide_eq_false hr, Bool.false_and]
  · have hsize := (inv.word 0).toNat_lt
    have hmin : min (inv.nat 1 + inv.size.spanX) (inv.nat 0) ≤ inv.nat 0 := Nat.min_le_right _ _
    exact Nat.le_trans hmin (Nat.le_of_lt hsize)

/-- The lowest nonbasic variable of a chunk that can correct the broken one. The correction
    is worked out once for the whole launch, from the words of the broken variable. -/
theorem findSuitable_eq (h : inv.Finds m 8 7 w) {n numCols broken offset : Nat}
    (hn : inv.nat 0 = n) (hnc : inv.nat 1 = numCols) (hb : inv.nat 2 = broken)
    (ho : inv.nat 3 = offset) {span : Nat} (hx : inv.size.spanX = span) {place : Nat → Nat}
    {coeff : Nat → Binary32}
    (hbounds : BoundView.Shows ⟨w 1, w 2, w 3⟩ n i)
    (hvalues : ∀ v < n, (w 4).number? v = some (x v))
    (hflags : ∀ v < n, (w 5)[v]? = some (r v).flag)
    (hplaces : ∀ v < n, (w 6).index? v = some (place v)) (hbroken : broken < n)
    (hcoeff : ∀ v < n, r v = .nonbasic →
      (w 0).number? (place broken * numCols + place v) = some (coeff v))
    (hout : 0 < (w 7).size) :
    findSuitable inv m = (.ok (), m.store (inv.buffer 7) ((w 7).modify 0 (lowered
      (lowestIn (fun v => decide (r v = .nonbasic) &&
          (Correction.ofBroken (i broken) (x broken)).accepts (coeff v)
            ((i v).canIncrease (x v)) ((i v).canDecrease (x v)))
        offset (min (offset + span) n))))) := by
  subst hn hnc hb ho hx
  have hvaluesSize := Words.le_size_of_numbers hvalues
  have hflagsSize := Words.le_size fun v hv => by rw [hflags v hv]; rfl
  have hplacesSize := Words.le_size fun v hv => Words.isSome_of_index? (hplaces v hv)
  -- The broken variable is read once, before the items start.
  rcases Words.index?_eq_some (hplaces _ hbroken) with ⟨row, hrow, hrowNat⟩
  unfold findSuitable
  refine h.withOutput_eq ?_
  rw [h.input_eq (by omega) (by omega), h.read_eq (by omega) (by omega),
    h.input_eq (by omega) (by omega), h.input_eq (by omega) (by omega),
    h.input_eq (by omega) (by omega)]
  simp only [pure_bind]
  rw [Invocation.need_eq (Nat.le_min.mpr ⟨hvaluesSize, hflagsSize⟩), pure_bind,
    Invocation.need_eq hplacesSize, pure_bind, Body.output_bind, Invocation.need_eq hout, pure_bind]
  simp only [hrow, hvalues _ hbroken, hbounds.interval _ hbroken, Body.entry_some, pure_bind,
    hrowNat]
  refine lowerOutput_eq (fun v _ hv => ?_) ?_ (w 7)
  · have hlt : v < inv.nat 0 := by omega
    simp only [hflags v hlt, Body.entry_some, pure_bind, Role.flag_eq_iff, ne_eq]
    by_cases hr : r v = .nonbasic
    · rcases Words.index?_eq_some (hplaces v hlt) with ⟨col, hcol, hcolNat⟩
      rw [if_neg (not_not_intro hr), decide_eq_true hr, Bool.true_and]
      simp only [hcol, hcolNat, hcoeff v hlt hr, hvalues v hlt, hbounds.interval v hlt,
        Body.entry_some, pure_bind]
    · rw [if_pos hr, decide_eq_false hr, Bool.false_and]
  · have hsize := (inv.word 0).toNat_lt
    have hmin : min (inv.nat 3 + inv.size.spanX) (inv.nat 0) ≤ inv.nat 0 := Nat.min_le_right _ _
    exact Nat.le_trans hmin (Nat.le_of_lt hsize)

/-- The correction of a pair of variables. -/
theorem findSuitableComplete_eq (h : inv.Finds m 6 4 w) {numCols broken suitable : Nat}
    (hnc : inv.nat 0 = numCols) (hb : inv.nat 1 = broken) (hs : inv.nat 2 = suitable) {n : Nat}
    {place : Nat → Nat} {coeff : Binary32} (hbounds : BoundView.Shows ⟨w 1, w 2, w 3⟩ n i)
    (hvalues : ∀ v < n, (w 4).number? v = some (x v))
    (hplaces : ∀ v < n, (w 5).index? v = some (place v)) (hbroken : broken < n)
    (hsuitable : suitable < n)
    (hcoeff : (w 0).number? (place broken * numCols + place suitable) = some coeff) :
    findSuitableComplete inv m = (.ok (), m.store (inv.buffer 4)
      (((w 4).modify suitable fun u =>
          ((Correction.ofBroken (i broken) (x broken)).shift ⟨u⟩
            ((Correction.ofBroken (i broken) (x broken)).theta coeff)).bits).modify
        broken fun u =>
          ((Correction.ofBroken (i broken) (x broken)).shift ⟨u⟩
            (Correction.ofBroken (i broken) (x broken)).delta).bits)) := by
  subst hnc hb hs
  -- Both indices are in range, so the checks of the kernel pass and the two writes take place.
  have hsize := Words.le_size_of_numbers hvalues
  rcases Words.index?_eq_some (hplaces _ hbroken) with ⟨row, hrow, hrowNat⟩
  rcases Words.index?_eq_some (hplaces _ hsuitable) with ⟨col, hcol, hcolNat⟩
  unfold findSuitableComplete
  refine h.withOutput_eq ?_
  rw [h.input_eq (by omega) (by omega), h.read_eq (by omega) (by omega),
    h.input_eq (by omega) (by omega)]
  simp only [pure_bind]
  rw [Body.output_bind, Invocation.need_eq (by omega), pure_bind]
  simp only [hrow, hcol, hrowNat, hcolNat, hcoeff, Body.entry_some, pure_bind]
  rw [Body.output_bind, hvalues _ hbroken, hbounds.interval _ hbroken]
  rfl

end Scans

end Kernel

end BoundedSimplex
