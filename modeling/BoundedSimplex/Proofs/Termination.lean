import Mathlib.Order.Filter.AtTopBot.Basic
import Mathlib.Order.Filter.Finite
import BoundedSimplex.Proofs.Infeasible

/-!
# Every Search Ends

Over exact numbers, without a tolerance and with bounds that do not contradict
each other, a search reaches a verdict.

Nothing decreases on the way. Values go up and down, and so does the amount by
which bounds are violated. What rules out an endless search is the choice of
the lowest variable in both scans. Suppose a search never ends. Some variables
then leave the basis again and again; let `r` be the last of them. Consider a
late iteration in which `r` leaves, and the next one in which it enters.

In the first one `r` is the lowest broken variable, so every basic variable
before it lies within its bounds. In the second one `r` is the lowest variable
that suits some variable `i`, so no nonbasic variable before it does. The
values of both moments satisfy the row of `i` at the second one. The
difference between them is therefore a combination of differences of column
variables. Those after `r` did not move. Those before `r` were within their
bounds at the first moment, and do not suit, so that they contribute nothing
towards the correction of `i`; and neither does `r`, which stood beyond its
bound at the first moment and stands on it at the second. But `i` itself was
within its bounds at the first moment, and is corrected towards them at the
second.

A variable that was never corrected may lie outside its bounds while it is
nonbasic, since nothing is assumed about where zero lies. That is why the two
moments are late: by then every variable that takes part has left the basis
once, and has been put on a bound.

## Main definitions

* `Board.Endless`: A search that exchanges two variables for ever.

## Theorems

* `Board.Endless.within_of_left`: What left the basis is within its bounds.
* `Board.Endless.false`: There is no such search.
* `Board.exists_bound`: There is a number of exchanges no search gets to.
* `Sequential.solve_terminates`: A search reaches a verdict.
-/

namespace BoundedSimplex

open Filter Finset

namespace Board

/-- A search that exchanges two variables for ever. It is assumed in order to be refuted:
    among the variables that are exchanged again and again the highest one leads to a
    contradiction. -/
structure Endless (b : Nat → Board Rat) (leaving entering : Nat → Nat) : Prop where
  valid : (b 0).Valid
  rows : ∀ r < (b 0).maxRows, (b 0).Row (b 0).value r
  tolerance : (b 0).tolerance = 0
  consistent : ∀ v < (b 0).numVars, ∀ l u, ((b 0).interval v).lower = some l →
    ((b 0).interval v).upper = some u → l ≤ u
  next : ∀ n, (b n).next leftSum = .exchange (leaving n) (entering n) (b (n + 1))

/-- Without a tolerance nothing is near a bound. -/
theorem isNear_zero (x y : Rat) : Interval.isNear 0 x y = false := by
  show Scalar.lt (Rat.abs (x - y)) 0 = false
  rw [← Bool.not_eq_true, lt_iff_exact, not_lt]
  exact Rat.abs_nonneg

/-- Without a tolerance a value that is not broken is within its bounds. -/
theorem contains_of_not_isBroken {i : Interval Rat} {x : Rat} (h : i.isBroken 0 x = false) :
    i.Contains x := by
  -- Being near a bound is an excuse only with a tolerance.
  have hnear : ∀ o : Option Rat, o.any (Interval.isNear 0 x) = false := by
    intro o
    cases o with
    | none => rfl
    | some y => exact isNear_zero x y
  rw [Interval.isBroken, hnear, hnear, Bool.not_false, Bool.true_and, Bool.true_and,
    Bool.or_eq_false_iff] at h
  constructor
  · intro l hl
    rw [Option.mem_def.mp hl] at h
    exact h.1
  · intro u hu
    rw [Option.mem_def.mp hu] at h
    exact h.2

/-- A correction takes a broken variable exactly to the bound it violates. -/
theorem landing_cases {b : Board Rat} {v : Nat} (hb : b.isBroken v = true) :
    (∃ l, (b.interval v).lower = some l ∧ b.value v < l ∧ b.landing v = l) ∨
      ∃ u, (b.interval v).upper = some u ∧ u < b.value v ∧ b.landing v = u := by
  rcases Correction.ofBroken_cases hb with ⟨l, hl, hlt, heq⟩ | ⟨u, hu, hlt, -, heq⟩
  · refine .inl ⟨l, hl, hlt, ?_⟩
    rw [landing, correction, heq]
    show b.value v + (l - b.value v) = l
    ring
  · refine .inr ⟨u, hu, hlt, ?_⟩
    rw [landing, correction, heq]
    show b.value v - (b.value v - u) = u
    ring

/-- So it is within its bounds afterwards, if there is something within them. -/
theorem landing_contains {b : Board Rat} {v : Nat} (hb : b.isBroken v = true)
    (hcons : ∀ l u, (b.interval v).lower = some l → (b.interval v).upper = some u → l ≤ u) :
    (b.interval v).Contains (b.landing v) := by
  rw [Interval.contains_iff]
  -- It lands on a bound. That one it keeps, and the other one is not on the wrong side of it.
  rcases landing_cases hb with ⟨l, hl, -, heq⟩ | ⟨u, hu, -, heq⟩
  · rw [heq]
    refine ⟨fun l' hl' => ?_, fun u hu => hcons l u hl hu⟩
    rw [Option.mem_def, hl] at hl'
    cases hl'
    exact le_rfl
  · rw [heq]
    refine ⟨fun l hl => hcons l u hl hu, fun u' hu' => ?_⟩
    rw [Option.mem_def, hu] at hu'
    cases hu'
    exact le_rfl

/-- A variable that was corrected to a bound, and can take part in another
    correction there, would have been further from that one before. -/
theorem sign_mul_landing_nonpos {b : Board Rat} {v : Nat} {c : Correction Rat} {coeff : Rat}
    (hb : b.isBroken v = true) (h : c.accepts coeff ((b.interval v).canIncrease (b.landing v))
      ((b.interval v).canDecrease (b.landing v)) = true) :
    c.sign * (coeff * (b.value v - b.landing v)) ≤ 0 := by
  rw [Correction.accepts_exact_iff] at h
  rw [← mul_assoc]
  have hself : ∀ x : Rat, Scalar.lt x x = false := StrictScalar.lt_self
  -- Four cases: the bound it was put at, and the direction in which it can still go. At a lower
  -- bound it can only rise, at an upper one only fall; the other two contradict that.
  rcases landing_cases hb with ⟨l, hl, hlt, heq⟩ | ⟨u, hu, hlt, heq⟩
  · rcases h with ⟨-, hpos⟩ | ⟨hdec, -⟩
    · exact mul_nonpos_of_nonneg_of_nonpos hpos.le (by linarith)
    · rw [heq, Interval.canDecrease, hl, Option.all_some, Scalar.gt, hself] at hdec
      exact absurd hdec (by decide)
  · rcases h with ⟨hinc, -⟩ | ⟨-, hneg⟩
    · rw [heq, Interval.canIncrease, hu, Option.all_some, hself] at hinc
      exact absurd hinc (by decide)
    · exact mul_nonpos_of_nonpos_of_nonneg hneg.le (by linarith)

namespace Endless

variable {b : Nat → Board Rat} {leaving entering : Nat → Nat} (h : Endless b leaving entering)
include h

theorem run (n : Nat) : ∃ l, Run leftSum (b 0) l (b n) := by
  induction n with
  | zero => exact ⟨[], .start⟩
  | succ n ih =>
      rcases ih with ⟨l, hrun⟩
      exact ⟨_, hrun.step (h.next n)⟩

theorem same (n : Nat) : (b n).Same (b 0) := by
  rcases h.run n with ⟨l, hrun⟩
  exact hrun.same

theorem valid_at (n : Nat) : (b n).Valid := by
  rcases h.run n with ⟨l, hrun⟩
  exact hrun.valid h.valid

theorem exchanges (n : Nat) : (b n).Exchanges (leaving n) (entering n) :=
  (next_eq_exchange_iff.mp (h.next n)).1

theorem succ_eq (n : Nat) : b (n + 1) = (b n).after leftSum (leaving n) (entering n) :=
  (next_eq_exchange_iff.mp (h.next n)).2

/-! ### How a variable gets from one moment to another -/

/-- A nonbasic variable that does not enter the basis stays where it is. -/
theorem stays {v m n : Nat} (hmn : m ≤ n) (hrole : (b m).role v = .nonbasic)
    (hnot : ∀ k, m ≤ k → k < n → entering k ≠ v) :
    (b n).role v = .nonbasic ∧ (b n).value v = (b m).value v := by
  -- Induction on the iterations between the two. A nonbasic variable cannot leave, and by
  -- assumption it does not enter.
  induction n, hmn using Nat.le_induction with
  | base => exact ⟨hrole, rfl⟩
  | succ n hmn ih =>
      rcases ih fun k hk hkn => hnot k hk (by omega) with ⟨hrole', hvalue⟩
      have he : v ≠ entering n := Ne.symm (hnot n hmn (by omega))
      have hl : v ≠ leaving n := (ne_of_roles (h.exchanges n).leaving_basic hrole').symm
      have hrole'' : (b (n + 1)).role v = .nonbasic := by
        rw [h.succ_eq, role_after_other hl he]
        exact hrole'
      refine ⟨hrole'', ?_⟩
      rw [h.succ_eq] at hrole''
      rw [h.succ_eq, value_after_nonbasic hrole'', if_neg hl, hvalue]

/-- A variable that becomes nonbasic left in between. -/
theorem exists_leaving {v m n : Nat} (hmn : m ≤ n) (hrole : (b m).role v = .basic)
    (hrole' : (b n).role v = .nonbasic) : ∃ k, m ≤ k ∧ k < n ∧ leaving k = v := by
  induction n, hmn using Nat.le_induction with
  | base =>
      rw [hrole] at hrole'
      exact absurd hrole' (by decide)
  | succ n hmn ih =>
      by_cases hl : leaving n = v
      · exact ⟨n, hmn, by omega, hl⟩
      · rw [h.succ_eq] at hrole'
        have he : v ≠ entering n := (ne_of_roles role_after_entering hrole').symm
        rw [role_after_other (Ne.symm hl) he] at hrole'
        rcases ih hrole' with ⟨k, hmk, hkn, hk⟩
        exact ⟨k, hmk, by omega, hk⟩

/-- A variable that left the basis once is within its bounds whenever it is nonbasic. It
    left for a bound, and does not move until it enters again. -/
theorem within_of_left {m n : Nat} (hmn : m < n) (hrole : (b n).role (leaving m) = .nonbasic) :
    ((b 0).interval (leaving m)).Contains ((b n).value (leaving m)) := by
  have hland : ∀ k, ((b 0).interval (leaving k)).Contains ((b k).landing (leaving k)) := by
    intro k
    have hsame := h.same k
    have hlt := (h.exchanges k).leaving_lt
    rw [hsame.numVars] at hlt
    have hbroken := (firstBroken_eq_some (h.exchanges k).broken).2.2.1
    have hcontains := landing_contains hbroken (by
      rw [hsame.interval]
      exact h.consistent _ hlt)
    rw [hsame.interval] at hcontains
    exact hcontains
  -- It is put onto a bound when it leaves, and a nonbasic variable is not moved.
  induction n, hmn using Nat.le_induction with
  | base =>
      rw [Nat.succ_eq_add_one, h.succ_eq] at hrole ⊢
      rw [value_after_nonbasic hrole, if_pos rfl]
      exact hland m
  | succ n hmn ih =>
      rw [h.succ_eq] at hrole ⊢
      rw [value_after_nonbasic hrole]
      by_cases hl : leaving m = leaving n
      · rw [if_pos hl, hl]
        exact hland n
      · have he : leaving m ≠ entering n := by
          intro heq
          rw [heq, role_after_entering] at hrole
          exact absurd hrole (by decide)
        rw [role_after_other hl he] at hrole
        rw [if_neg hl]
        exact ih hrole

/-! ### What happens again and again -/

/-- Some variable leaves the basis again and again. -/
theorem exists_frequently_leaving :
    ∃ v < (b 0).numVars, ∃ᶠ n in atTop, leaving n = v := by
  by_contra hnone
  have hall : ∀ v ∈ range (b 0).numVars, ∀ᶠ n in atTop, leaving n ≠ v := by
    intro v hv
    rw [← not_frequently]
    exact fun hfreq => hnone ⟨v, mem_range.mp hv, by simpa only [ne_eq, not_not] using hfreq⟩
  rcases ((eventually_all_finset _).mpr hall).exists with ⟨n, hn⟩
  refine hn (leaving n) (mem_range.mpr ?_) rfl
  rw [← (h.same n).numVars]
  exact (h.exchanges n).leaving_lt

/-- What enters the basis again and again leaves it again and again. -/
theorem frequently_leaving_of_entering {v : Nat} (hv : ∃ᶠ n in atTop, entering n = v) :
    ∃ᶠ n in atTop, leaving n = v := by
  rw [frequently_atTop] at hv ⊢
  intro n
  -- Between two times that it enters it has to leave.
  rcases hv n with ⟨m₁, hm₁, rfl⟩
  rcases hv (m₁ + 1) with ⟨m₂, hm₂, heq⟩
  have hbasic : (b (m₁ + 1)).role (entering m₁) = .basic := by
    rw [h.succ_eq, role_after_entering]
  have hnonbasic : (b m₂).role (entering m₁) = .nonbasic := by
    rw [← heq]
    exact (h.exchanges m₂).entering_nonbasic
  rcases h.exists_leaving hm₂ hbasic hnonbasic with ⟨k, hk, -, hleave⟩
  exact ⟨k, by omega, hleave⟩

/-- Of the variables that leave the basis again and again there is a last
    one. -/
theorem exists_last_leaving : ∃ r < (b 0).numVars, (∃ᶠ n in atTop, leaving n = r) ∧
    ∀ v < (b 0).numVars, (∃ᶠ n in atTop, leaving n = v) → v ≤ r := by
  classical
  rcases h.exists_frequently_leaving with ⟨v₀, hv₀, hfreq₀⟩
  rcases exists_max_image ((range (b 0).numVars).filter fun v => ∃ᶠ n in atTop, leaving n = v) id
    ⟨v₀, mem_filter.mpr ⟨mem_range.mpr hv₀, hfreq₀⟩⟩ with ⟨r, hr, hmax⟩
  rcases mem_filter.mp hr with ⟨hlt, hfreq⟩
  exact ⟨r, mem_range.mp hlt, hfreq, fun v hv hv' =>
    hmax v (mem_filter.mpr ⟨mem_range.mpr hv, hv'⟩)⟩

/-- In the end every variable that leaves again and again has left before, and
    the others take no part any more. -/
theorem eventually_settled : ∀ᶠ n in atTop, ∀ v < (b 0).numVars,
    ((∃ᶠ k in atTop, leaving k = v) → ∃ m < n, leaving m = v) ∧
      ((¬ ∃ᶠ k in atTop, leaving k = v) → leaving n ≠ v ∧ entering n ≠ v) := by
  have hall : ∀ v ∈ range (b 0).numVars, ∀ᶠ n in atTop,
      ((∃ᶠ k in atTop, leaving k = v) → ∃ m < n, leaving m = v) ∧
        ((¬ ∃ᶠ k in atTop, leaving k = v) → leaving n ≠ v ∧ entering n ≠ v) := by
    intro v _
    -- A variable that leaves again and again has left once. One that does not stops entering as
    -- well, since what enters has to leave before it can enter again.
    by_cases hfreq : ∃ᶠ k in atTop, leaving k = v
    · rcases hfreq.exists with ⟨m, hm⟩
      filter_upwards [eventually_gt_atTop m] with n hn
      exact ⟨fun _ => ⟨m, hn, hm⟩, fun hnot => absurd hfreq hnot⟩
    · have hnot : ¬ ∃ᶠ k in atTop, entering k = v :=
        fun hent => hfreq (h.frequently_leaving_of_entering hent)
      have hfreq' := hfreq
      rw [not_frequently] at hfreq' hnot
      filter_upwards [hfreq', hnot] with n hl he
      exact ⟨fun hyes => absurd hyes hfreq, fun _ => ⟨hl, he⟩⟩
  -- There are finitely many variables, so one moment does for all of them.
  filter_upwards [(eventually_all_finset _).mpr hall] with n hn v hv
  exact hn v (mem_range.mpr hv)

/-- After a variable left there is a next iteration in which it enters, if it
    leaves once more. -/
theorem exists_next_entering {m n : Nat} (hmn : m < n) (hleave : leaving n = leaving m) :
    ∃ k, m < k ∧ entering k = leaving m ∧ ∀ k', m < k' → k' < k → entering k' ≠ leaving m := by
  have hafter : (b (m + 1)).role (leaving m) = .nonbasic := by
    rw [h.succ_eq, role_after_leaving (h.exchanges m)]
  have hex : ∃ k, m < k ∧ entering k = leaving m := by
    by_contra hnone
    have hstay := (h.stays (n := n) hmn hafter fun k hk _ heq => hnone ⟨k, hk, heq⟩).1
    rw [← hleave, (h.exchanges n).leaving_basic] at hstay
    exact absurd hstay (by decide)
  refine ⟨Nat.find hex, (Nat.find_spec hex).1, (Nat.find_spec hex).2, fun k' hk' hlt heq => ?_⟩
  exact Nat.find_min hex hlt ⟨hk', heq⟩

/-! ### The contradiction -/

/-- The values of one moment satisfy the rows of every other. -/
theorem row_value_at (m n : Nat) {r : Nat} (hr : r < (b n).numRows) : (b n).Row (b m).value r := by
  rcases h.run m with ⟨l, hm⟩
  rcases h.run n with ⟨l', hn⟩
  have hsolves : (b m).Solves (b m).value := by
    intro r' hr'
    exact hm.row_value h.valid h.rows r' (Nat.lt_of_lt_of_le hr' (h.valid_at m).numRows_le)
  exact (hn.solves_iff h.valid).mpr ((hm.solves_iff h.valid).mp hsolves) r hr

/-- Between an iteration in which the last variable leaves and the next one in
    which it enters there cannot be only variables before it that have left
    already. -/
theorem cycle_false {t₁ t₂ : Nat} (hlt : t₁ < t₂) (henter : entering t₂ = leaving t₁)
    (hbetween : ∀ k, t₁ < k → k < t₂ → entering k ≠ leaving t₁)
    (hothers : ∀ v < (b 0).numVars, (v ≤ leaving t₁ ∧ ∃ m < t₁, leaving m = v) ∨
      ∀ k, t₁ ≤ k → leaving k ≠ v ∧ entering k ≠ v) : False := by
  have hsame₁ := h.same t₁
  have hsame₂ := h.same t₂
  have hex₁ := h.exchanges t₁
  have hex₂ := h.exchanges t₂
  have hv₂ := h.valid_at t₂
  -- Variables before the last one that have left already are within their bounds.
  have hwithin : ∀ v < leaving t₁, (∃ m < t₁, leaving m = v) →
      ((b 0).interval v).Contains ((b t₁).value v) := by
    rintro v hvr ⟨m, hm, rfl⟩
    cases hrole : (b t₁).role (leaving m) with
    | nonbasic => exact h.within_of_left hm hrole
    | basic =>
        have hnot := (firstBroken_eq_some hex₁.broken).2.2.2 (leaving m) hvr hrole
        rw [isBroken, hsame₁.tolerance, h.tolerance, hsame₁.interval] at hnot
        exact contains_of_not_isBroken hnot
  -- The last variable stands where its correction put it.
  have hland : (b t₂).value (leaving t₁) = (b t₁).landing (leaving t₁) := by
    have hafter : (b (t₁ + 1)).role (leaving t₁) = .nonbasic := by
      rw [h.succ_eq, role_after_leaving hex₁]
    have hstay := (h.stays hlt hafter fun k hk hkt => hbetween k hk hkt).2
    rw [hstay]
    rw [h.succ_eq] at hafter ⊢
    rw [value_after_nonbasic hafter, if_pos rfl]
  -- The variable that is corrected later is one of those before it.
  have hi : leaving t₂ < leaving t₁ ∧ ∃ m < t₁, leaving m = leaving t₂ := by
    have hlt₂ := hex₂.leaving_lt
    rw [hsame₂.numVars] at hlt₂
    rcases hothers _ hlt₂ with ⟨hle, hleft⟩ | hnever
    · refine ⟨Nat.lt_of_le_of_ne hle fun heq => hex₂.ne ?_, hleft⟩
      rw [heq, henter]
    · exact absurd rfl (hnever t₂ hlt.le).1
  -- No column variable contributes anything towards that correction.
  have hcolumn : ∀ v < (b 0).numVars, (b t₂).role v = .nonbasic →
      ((b t₂).correction (leaving t₂)).sign
        * ((b t₂).cross (leaving t₂) v * ((b t₁).value v - (b t₂).value v)) ≤ 0 := by
    intro v hv hrole
    rcases firstSuitable_eq_some hex₂.suitable with ⟨-, -, hsuits, hlower⟩
    by_cases hvr : v = leaving t₁
    · subst hvr
      rw [henter, suits, hland, hsame₂.interval, ← hsame₁.interval] at hsuits
      rw [hland]
      exact sign_mul_landing_nonpos (firstBroken_eq_some hex₁.broken).2.2.1 hsuits
    · rcases hothers v hv with ⟨hle, hleft⟩ | hnever
      · have hvr' : v < leaving t₁ := Nat.lt_of_le_of_ne hle hvr
        have hno := hlower v (by rw [henter]; exact hvr') hrole
        rw [suits, hsame₂.interval] at hno
        exact Correction.sign_mul_nonpos hno (hwithin v hvr' hleft)
      · have hrole₁ : (b t₁).role v = .nonbasic := by
          cases hrole₁ : (b t₁).role v with
          | nonbasic => rfl
          | basic =>
              rcases h.exists_leaving hlt.le hrole₁ hrole with ⟨k, hk, -, hleave⟩
              exact absurd hleave (hnever k hk).1
        rw [(h.stays hlt.le hrole₁ fun k hk _ => (hnever k hk).2).2, sub_self, mul_zero, mul_zero]
  -- So its row excludes the values of the first moment.
  rcases hv₂.basis.basic _ hex₂.leaving_lt hex₂.leaving_basic with ⟨-, howner⟩
  have hrow := hex₂.row_lt hv₂
  have hold := h.row_value_at t₁ t₂ hrow
  have hnew := h.row_value_at t₂ t₂ hrow
  rw [Row, howner] at hold hnew
  have hpos : 0 < ((b t₂).correction (leaving t₂)).sign
      * ((b t₁).value (leaving t₂) - (b t₂).value (leaving t₂)) := by
    refine Correction.sign_mul_pos (firstBroken_eq_some hex₂.broken).2.2.1 ?_
    rw [hsame₂.interval]
    exact hwithin _ hi.1 hi.2
  have hnonpos : ((b t₂).correction (leaving t₂)).sign
      * ((b t₁).value (leaving t₂) - (b t₂).value (leaving t₂)) ≤ 0 := by
    rw [hold, hnew, rowSum_sub, mul_sum]
    refine sum_nonpos fun c hc => ?_
    rcases hv₂.basis.col c (mem_range.mp hc) with ⟨hclt, hplace, hrole⟩
    have hc' := hcolumn _ (by rw [← hsame₂.numVars]; exact hclt) hrole
    rw [cross, hplace] at hc'
    exact hc'
  exact absurd hpos (not_lt.mpr hnonpos)

/-- There is no endless search. The highest of the variables that leave again and again
    leaves in one iteration and enters in a later one, and what the two choices say of the
    signs of coefficients cannot both be true. -/
theorem false : False := by
  rcases h.exists_last_leaving with ⟨r, hr, hfreq, hlast⟩
  rcases eventually_atTop.mp h.eventually_settled with ⟨K, hK⟩
  rcases frequently_atTop.mp hfreq K with ⟨t₁, ht₁, rfl⟩
  rcases frequently_atTop.mp hfreq (t₁ + 1) with ⟨t₃, ht₃, hagain⟩
  rcases h.exists_next_entering ht₃ hagain with ⟨t₂, hlt, henter, hbetween⟩
  refine h.cycle_false hlt henter (fun k hk _ => hbetween k hk ‹_›) fun v hv => ?_
  by_cases hv' : ∃ᶠ n in atTop, leaving n = v
  · exact .inl ⟨hlast v hv hv', (hK t₁ ht₁ v hv).1 hv'⟩
  · exact .inr fun k hk => (hK k (ht₁.trans hk) v hv).2 hv'

end Endless

/-- There is a number of exchanges that no search gets to. No search has a choice, so if
    there were one of every length they would all be the beginning of one endless search. -/
theorem exists_bound {p : Problem Rat} (hp : p.rows.length ≤ p.maxRows)
    (hcons : ∀ v < p.numVars, ∀ l u, (p.bounds v).lower = some l → (p.bounds v).upper = some u →
      l ≤ u) : ∃ N, ∀ l b, Run leftSum (p.board 0) l b → l.length < N := by
  -- Otherwise there is a search of every length. None of them has a choice, so each
  -- goes on where the one before it stops, and together they are endless.
  by_contra hnone
  have hall : ∀ n, ∃ x : List (Nat × Nat) × Board Rat,
      Run leftSum (p.board 0) x.1 x.2 ∧ x.1.length = n := by
    intro n
    simp only [not_exists, not_forall, not_lt] at hnone
    rcases hnone n with ⟨l, b, hrun, hn⟩
    rcases hrun.exists_of_le hn with ⟨l', b', hrun', hlen⟩
    exact ⟨(l', b'), hrun', hlen⟩
  choose x hx hlen using hall
  have hnext : ∀ n, ∃ e : Nat × Nat, (x n).2.next leftSum = .exchange e.1 e.2 (x (n + 1)).2 := by
    intro n
    rcases (hx (n + 1)).exists_last (hlen (n + 1)) with ⟨l, b, leaving, entering, hrun, hl, hnext⟩
    rw [← ((hx n).unique hrun ((hlen n).trans hl.symm)).2] at hnext
    exact ⟨(leaving, entering), hnext⟩
  choose e he using hnext
  have h₀ : (x 0).2 = p.board 0 := ((hx 0).unique .start (hlen 0)).2
  have hendless : Endless (fun n => (x n).2) (fun n => (e n).1) fun n => (e n).2 :=
    { valid := by
        rw [h₀]
        exact Problem.valid_board hp 0
      rows := by
        rw [h₀]
        exact row_value_board p 0
      tolerance := by rw [h₀]; rfl
      consistent := by
        rw [h₀]
        exact hcons
      next := he }
  exact hendless.false

end Board

namespace Sequential

variable {τ : Type} {maxRows numCols : Nat} {config : Config Rat} {calls : List (BuildCall Rat)}
  {t u : Traced τ} {s : Solver (Sequential Rat) Rat} {j : Journal}
  {t₁ : Traced (Solver (Sequential Rat) Rat)}

/-- A search over exact numbers reaches a verdict after finitely many
    iterations, and given more of them it reaches it all the same. -/
theorem solve_terminates (hmake : Solver.sequential maxRows numCols config t = .ok s u)
    (hbuild : Solver.build calls ⟨s, j⟩ = .ok () t₁) (htol : config.tolerance = 0)
    (hlimit : config.maxIterations = none)
    (hcons : ∀ v < numCols + maxRows, ∀ l u,
      ((Problem.ofCalls maxRows numCols calls).bounds v).lower = some l →
      ((Problem.ofCalls maxRows numCols calls).bounds v).upper = some u → l ≤ u) :
    ∃ N, ∀ fuel, N ≤ fuel → ∃ sat v, Solver.solve fuel t₁ = .ok sat v := by
  have hp := Problem.length_rows_ofCalls maxRows numCols calls
  rcases Problem.dimensions_ofCalls maxRows numCols calls with ⟨hrows, hcols⟩
  -- The lengths of all runs have a common bound, so with more steps than that the search cannot
  -- run out of them.
  rcases Board.exists_bound hp (by
    rw [Problem.numVars, hrows, hcols]
    exact hcons) with ⟨N, hN⟩
  refine ⟨N, fun fuel hfuel => ?_⟩
  have hend := ending_of_build hmake hbuild fuel
  rw [htol] at hend
  cases hres : Solver.solve fuel t₁ with
  | ok sat v => exact ⟨sat, v, rfl⟩
  | error e v =>
      rw [hres] at hend
      -- And it has no limit that it could reach, nor anything that keeps it from summing.
      cases hend with
      | limit _ _ hmax =>
          rw [(shows_of_build hmake hbuild).2.2.1, hlimit] at hmax
          cases hmax
      | fuel hrun _ hlen =>
          have := hN _ _ hrun
          omega
      | stuck hstuck _ => cases hstuck

/-- The search among bounds that exclude each other ends. -/
theorem solve_terminates_crossed :
    ∃ N, ∀ fuel, N ≤ fuel → ∃ sat v, Solver.solve fuel crossedSolver = .ok sat v := by
  refine solve_terminates sequential_exactSolver build_crossedSolver rfl rfl
    fun v hv l u hl hu => ?_
  have hv' : v = 0 ∨ v = 1 := by omega
  rcases hv' with rfl | rfl
  · cases hl
    cases hu
    decide
  · cases hu

end Sequential

end BoundedSimplex
