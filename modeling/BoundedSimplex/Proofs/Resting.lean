import BoundedSimplex.Proofs.Creation
import BoundedSimplex.Solver.Report

/-!
# Where Variables Rest

What a verdict of satisfiability vouches for, and what it does not.

The search stops as soon as no basic variable is broken, and it never looks at
the bounds of a nonbasic one. Where such a variable rests is therefore decided
elsewhere. A variable that has not left the basis during the search is where it
was at first, at zero, whatever its bounds are. One that has left it was
corrected in that iteration, and is still where that correction put it. That
is a bound of it in exact arithmetic, but it need not be one after rounding,
and if the bounds exclude each other it violates the other one.

So an assignment that was found is within all bounds exactly if the variables
that end nonbasic rest within theirs, `Solver.Vouches`. This holds of both
engines, since nothing of it depends on how rows are summed.

## Main definitions

* `Solver.HasValue`, `Solver.HasRole`: What a solver reports of a variable.
* `Solver.Unbroken`: What a caller would like to be told.
* `Solver.RestsAt`: Where a variable was put last.
* `Solver.Vouches`: What a verdict of satisfiability says of the bounds.
* `Engine.Reads`: An engine that reports values and roles.

## Theorems

* `Board.Run.value_nonbasic`: The value of a nonbasic variable.
* `Solver.moments_of_solve`: The iterations behind a verdict.
* `Solver.vouches_of_solve`: Any engine that follows the board.
-/

namespace BoundedSimplex

/-! ### The value of a nonbasic variable -/

namespace Board

variable {α : Type} [Scalar α] {sum : Summation α} {b₀ b : Board α} {l : List (Nat × Nat)} {v : Nat}

/-- The variable is the one that leaves in exchange number `n`. -/
def LeavesAt (l : List (Nat × Nat)) (v n : Nat) : Prop := (l[n]?).map Prod.fst = some v

theorem leavesAt_append {leaving entering n : Nat} :
    LeavesAt (l ++ [(leaving, entering)]) v n ↔ LeavesAt l v n ∨ n = l.length ∧ leaving = v := by
  unfold LeavesAt
  -- Before the new exchange, at it, and after it, where there is none.
  rcases Nat.lt_trichotomy n l.length with hlt | heq | hgt
  · have hne : n ≠ l.length := Nat.ne_of_lt hlt
    rw [List.getElem?_append_left hlt]
    simp only [hne, false_and, or_false]
  · have hnone : l[n]? = none := List.getElem?_eq_none (Nat.le_of_eq heq.symm)
    have hlast : (l ++ [(leaving, entering)])[n]? = some (leaving, entering) := by
      rw [heq, List.getElem?_concat_length]
    rw [hnone, hlast]
    simp only [heq, Option.map_some, Option.map_none, reduceCtorEq, false_or, true_and,
      Option.some.injEq]
  · have hne : n ≠ l.length := Nat.ne_of_gt hgt
    have hlen : (l ++ [(leaving, entering)]).length ≤ n := by
      rw [List.length_append, List.length_singleton]
      omega
    rw [List.getElem?_eq_none hlen, List.getElem?_eq_none (Nat.le_of_lt hgt)]
    simp only [hne, false_and, or_false]

theorem LeavesAt.lt {n : Nat} (h : LeavesAt l v n) : n < l.length := by
  rcases Nat.lt_or_ge n l.length with hlt | hge
  · exact hlt
  · rw [LeavesAt, List.getElem?_eq_none hge] at h
    cases h

/-- A nonbasic variable is where it was at first, or where the correction put
    it with which it last left the basis. -/
theorem Run.value_nonbasic (h : Run sum b₀ l b) (hrole : b.role v = .nonbasic) :
    ((∀ n, ¬ LeavesAt l v n) ∧ b.value v = b₀.value v) ∨
      ∃ n l' b', LeavesAt l v n ∧ (∀ m, n < m → ¬ LeavesAt l v m) ∧ Run sum b₀ l' b' ∧
        l'.length = n ∧ b.value v = b'.landing v := by
  -- By induction on the search: the last exchange moves the variable that leaves,
  -- and no other one that is nonbasic afterwards.
  induction h with
  | start =>
      refine .inl ⟨fun n hn => ?_, rfl⟩
      exact absurd hn.lt (Nat.not_lt_zero n)
  | @step l b b' leaving entering hrun hnext ih =>
      rcases next_eq_exchange_iff.mp hnext with ⟨hex, rfl⟩
      have hvalue := value_after_nonbasic hrole
      by_cases hvl : v = leaving
      · rw [if_pos hvl] at hvalue
        refine .inr ⟨l.length, l, b, leavesAt_append.mpr (.inr ⟨rfl, hvl.symm⟩), ?_, hrun, rfl, ?_⟩
        · intro m hm hleaves
          have hlt := hleaves.lt
          rw [List.length_append, List.length_singleton] at hlt
          omega
        · rw [hvalue, hvl]
      · have hve : v ≠ entering := by
          intro hve
          rw [hve, role_after_entering] at hrole
          exact absurd hrole (by decide)
        have hsame : ∀ n, LeavesAt (l ++ [(leaving, entering)]) v n ↔ LeavesAt l v n := by
          intro n
          have hne : leaving ≠ v := Ne.symm hvl
          rw [leavesAt_append]
          simp only [hne, and_false, or_false]
        rw [role_after_other hvl hve] at hrole
        rw [if_neg hvl] at hvalue
        simp only [hsame, hvalue]
        exact ih hrole

end Board

/-! ### What a verdict vouches for -/

/-- The value at which a correction leaves a broken value. -/
def Interval.landing {α : Type} [Scalar α] (i : Interval α) (x : α) : α :=
  (Correction.ofBroken i x).shift x (Correction.ofBroken i x).delta

namespace Solver

section Statement

variable {β α : Type} [Engine β α]

/-- The solver reports this value of a variable. A question that fails reports nothing. -/
def HasValue (u : Traced (Solver β α)) (v : Nat) (x : α) : Prop :=
  Exec.value? (assignment v u) = some x

/-- The solver reports this role of a variable. -/
def HasRole (u : Traced (Solver β α)) (v : Nat) (r : Role) : Prop :=
  Exec.value? (role v u) = some r

/-- The variable is the one that left the basis in iteration number `n`. -/
def LeftAt (u : Traced (Solver β α)) (v n : Nat) : Prop :=
  (u.state.history[n]?).map (·.leaving) = some v

variable [Scalar α]

/-- Where a variable was put last in a search from `t` to `u`: at zero if it has not left
    the basis, and otherwise where the correction in that iteration left it. The value is
    that of the correction as it is computed, which in floating point need not be the bound. -/
inductive RestsAt (t u : Traced (Solver β α)) (bounds : Nat → Interval α) (v : Nat) : α → Prop where
  /-- It has not left the basis. -/
  | untouched : (∀ n, ¬ LeftAt u v n) → RestsAt t u bounds v 0
  /-- It has left it last in iteration number `n`, which found it at `x`. -/
  | corrected {n : Nat} {w : Traced (Solver β α)} {x : α} : LeftAt u v n →
      (∀ m, n < m → ¬ LeftAt u v m) → Reaches t n w → HasValue w v x →
      RestsAt t u bounds v ((bounds v).landing x)

/-- No variable is reported at a value that violates its bounds by more than the tolerance,
    whatever its role. -/
def Unbroken (u : Traced (Solver β α)) (p : Problem α) (tolerance : α) : Prop :=
  ∀ v < p.numVars, ∀ x, HasValue u v x → (p.bounds v).isBroken tolerance x = false

/-- What a verdict of satisfiability says of the bounds of a problem: no basic variable is
    broken, a nonbasic one is where it was put last, and so no variable is broken at all
    exactly if none is that rests where it was put. The search looks at basic variables
    only, so for the others there is nothing more to be had. -/
structure Vouches (t u : Traced (Solver β α)) (p : Problem α) (tolerance : α) : Prop where
  reported : ∀ v < p.numVars, ∃ x r, HasValue u v x ∧ HasRole u v r
  basic : ∀ v < p.numVars, HasRole u v .basic → ∀ x, HasValue u v x →
    (p.bounds v).isBroken tolerance x = false
  nonbasic : ∀ v < p.numVars, HasRole u v .nonbasic → ∀ x,
    HasValue u v x ↔ RestsAt t u p.bounds v x
  unbroken : Unbroken u p tolerance ↔
    ∀ v < p.numVars, HasRole u v .nonbasic → ∀ x, RestsAt t u p.bounds v x →
      (p.bounds v).isBroken tolerance x = false

end Statement

/-! ### The iterations behind a verdict -/

section Moments

variable {β α : Type} [Engine β α] {t u v : Traced (Solver β α)} {sat : Bool}

/-- A search that comes to a verdict went through all moments before it. -/
theorem moments_of_run {fuel n : Nat} (hreach : Reaches t n u) (hrun : run fuel n u = .ok sat v) :
    ∃ m w, Reaches t m w ∧ iterate m w = .ok (some sat) v ∧
      ∀ k, n ≤ k → k ≤ m → ∃ w', Reaches t k w' := by
  -- Induction on the steps that are left. The verdict is reached here or after one more moment.
  induction fuel generalizing n u with
  | zero => cases hrun
  | succ fuel ih =>
      rcases Exec.bind_eq_ok hrun with ⟨r, u', hit, hrest⟩
      cases r with
      | some sat' =>
          cases hrest
          refine ⟨n, u, hreach, hit, fun k hk hk' => ⟨u, ?_⟩⟩
          rw [Nat.le_antisymm hk' hk]
          exact hreach
      | none =>
          rcases ih (hreach.next hit) hrest with ⟨m, w, hm, hlast, hall⟩
          refine ⟨m, w, hm, hlast, fun k hk hk' => ?_⟩
          by_cases heq : k = n
          · exact ⟨u, heq ▸ hreach⟩
          · exact hall k (by omega) hk'

theorem moments_of_solve {fuel : Nat} (hphase : t.state.phase = .building)
    (hopen : opening t = .ok () u) (hsolve : solve fuel t = .ok sat v) :
    ∃ m w w', Reaches t m w ∧ iterate m w = .ok (some sat) w' ∧ finish sat w' = .ok sat v ∧
      ∀ k ≤ m, ∃ w'', Reaches t k w'' := by
  rw [solve_building hphase hopen] at hsolve
  -- An error would have been answered with an error.
  have hverdict : (run fuel 0 >>= finish) u = .ok sat v := by
    unfold Exec.onError at hsolve
    cases hres : (run fuel 0 >>= finish) u with
    | ok r w =>
        rw [hres] at hsolve
        exact hsolve
    | error stop w =>
        rw [hres] at hsolve
        cases stop <;> cases hsolve
  rcases Exec.bind_eq_ok hverdict with ⟨r, w, hrun, hfinish⟩
  have hr : r = sat := by
    cases hfinish
    rfl
  rw [hr] at hrun hfinish
  rcases moments_of_run (.start hphase hopen) hrun with ⟨m, w', hreach, hit, hall⟩
  exact ⟨m, w', w, hreach, hit, hfinish, fun k hk => hall k (Nat.zero_le k) hk⟩

end Moments

end Solver

/-! ### Engines that report -/

/-- An engine that reports the values and the roles of the board it shows. -/
structure Engine.Reads {β α : Type} [Engine β α] (Shows : Workspace β α → Board α → Prop) :
    Prop where
  value : ∀ (w : Workspace β α) (b : Board α) (v : Nat), Shows w b → v < b.numVars →
    (BoundStore.assignment v : Exec β α).Gives w.engine fun x _ => x = b.value v
  role : ∀ (w : Workspace β α) (b : Board α) (v : Nat), Shows w b → v < b.numVars →
    (BoundStore.role v : Exec β Role).Gives w.engine fun r _ => r = b.role v

namespace Solver

section Reports

variable {β α : Type} [Scalar α] [Engine β α] {sum : Summation α} {obstacle : Nat → Option Obstacle}
  {Ready Shows : Workspace β α → Board α → Prop} {s₀ : Solver β α} {b : Board α}
  {l : List (Nat × Nat)} {t u : Traced (Solver β α)} {v : Nat}

omit [Scalar α] in
theorem hasValue_iff (hR : Engine.Reads Shows) (hat : At Shows s₀ u.state b l) (hv : v < b.numVars)
    {x : α} : HasValue u v x ↔ x = b.value v := by
  have hgives : (assignment v : Exec (Solver β α) α).Gives u.state fun x _ => x = b.value v := by
    unfold assignment onEngine onWorkspace Workspace.onEngine
    exact Exec.Gives.focus (Exec.Gives.focus (hR.value _ b v hat.shows_board hv))
  rcases hgives u.journal with ⟨_, s', j', hrun, rfl⟩
  have hvalue : Exec.value? (assignment v u) = some (b.value v) := congrArg Exec.value? hrun
  rw [HasValue, hvalue, Option.some.injEq]
  exact eq_comm

omit [Scalar α] in
theorem hasRole_iff (hR : Engine.Reads Shows) (hat : At Shows s₀ u.state b l) (hv : v < b.numVars)
    {r : Role} : HasRole u v r ↔ r = b.role v := by
  have hgives : (role v : Exec (Solver β α) Role).Gives u.state fun r _ => r = b.role v := by
    unfold role onEngine onWorkspace Workspace.onEngine
    exact Exec.Gives.focus (Exec.Gives.focus (hR.role _ b v hat.shows_board hv))
  rcases hgives u.journal with ⟨_, s', j', hrun, rfl⟩
  have hrole : Exec.value? (role v u) = some (b.role v) := congrArg Exec.value? hrun
  rw [HasRole, hrole, Option.some.injEq]
  exact eq_comm

omit [Scalar α] [Engine β α] in
theorem leftAt_iff (hat : At Shows s₀ u.state b l) (hhistory : s₀.history = #[]) {n : Nat} :
    LeftAt u v n ↔ Board.LeavesAt l v n := by
  rw [LeftAt, hat.history, hhistory, Array.empty_append, stepsOf, List.getElem?_toArray,
    List.getElem?_mapIdx, Option.map_map]
  rfl

/-- The history tells where a nonbasic variable rests. -/
theorem restsAt_iff (hF : Engine.Follows sum obstacle Ready Shows) (hR : Engine.Reads Shows)
    [StrictScalar α] {b₀ : Board α} (hv₀ : b₀.Valid) (hready : Ready t.state.workspace b₀)
    (hhistory : t.state.history = #[]) (hrun : Board.Run sum b₀ l b)
    (hat : At Shows t.state u.state b l) (hmoments : ∀ n < l.length, ∃ w, Reaches t n w)
    (hv : v < b.numVars) (hzero : b₀.value v = 0) (hrole : b.role v = .nonbasic) {x : α} :
    RestsAt t u b₀.interval v x ↔ x = b.value v := by
  have hleft : ∀ {n}, LeftAt u v n ↔ Board.LeavesAt l v n := leftAt_iff hat hhistory
  -- The moment before an iteration shows the board of the search.
  have hlanding : ∀ {n w l' b'}, Reaches t n w → Board.Run sum b₀ l' b' → l'.length = n →
      ∀ {y}, HasValue w v y ↔ y = b'.value v := by
    intro n w l' b' hreach hrun' hlen y
    rcases hreach.at_board hF hv₀ hready with ⟨l'', b'', hrun'', hlen'', hat''⟩
    rcases hrun'.unique hrun'' (hlen.trans hlen''.symm) with ⟨rfl, rfl⟩
    refine hasValue_iff hR hat'' ?_
    rw [hrun'.same.numVars, ← hrun.same.numVars]
    exact hv
  rcases hrun.value_nonbasic hrole with ⟨hnever, hvalue⟩ |
    ⟨n, l', b', hleaves, hlast, hrun', hlen, hvalue⟩
  -- A variable that never left rests at zero, and an iteration in which it left last
  -- would be one in which it left.
  · rw [hvalue, hzero]
    constructor
    · intro hrests
      cases hrests with
      | untouched _ => rfl
      | corrected hn _ _ _ => exact absurd (hleft.mp hn) (hnever _)
    · rintro rfl
      exact .untouched fun n hn => hnever n (hleft.mp hn)
  · have hbound : (b₀.interval v).landing (b'.value v) = b.value v := by
      rw [hvalue, ← hrun'.same.interval]
      rfl
    constructor
    · intro hrests
      cases hrests with
      | untouched hnever => exact absurd (hleft.mpr hleaves) (hnever n)
      | @corrected m w y hm hmlast hreach hy =>
          -- Both numbers are the last one.
          have hmn : m = n := by
            rcases Nat.lt_trichotomy m n with hlt | heq | hgt
            · exact absurd (hleft.mpr hleaves) (hmlast n hlt)
            · exact heq
            · exact absurd (hleft.mp hm) (hlast m hgt)
          rw [(hlanding hreach hrun' (hlen.trans hmn.symm)).mp hy, hbound]
    · rintro rfl
      rcases hmoments n hleaves.lt with ⟨w, hreach⟩
      rw [← hbound]
      exact .corrected (hleft.mpr hleaves) (fun m hm hleft' => hlast m hm (hleft.mp hleft')) hreach
        ((hlanding hreach hrun' hlen).mpr rfl)

/-- A verdict of satisfiability on any engine that follows the board. The arithmetic may be
    exact or rounded. -/
theorem vouches_of_solve [StrictScalar α] (hF : Engine.Follows sum obstacle Ready Shows)
    (hR : Engine.Reads Shows) {p : Problem α} {tolerance : α}
    (hready : Ready t.state.workspace (p.board tolerance)) (hrows : p.rows.length ≤ p.maxRows)
    (hphase : t.state.phase = .building) (hhistory : t.state.history = #[]) {fuel : Nat}
    (hsolve : solve fuel t = .ok true u) : Vouches t u p tolerance := by
  have hv₀ := Problem.valid_board hrows tolerance
  rcases opening_gives hF hv₀ hready t.journal with ⟨_, s₁, j₁, hopen, -⟩
  rcases moments_of_solve hphase hopen hsolve with ⟨m, w, w', hreach, hit, hfinish, hall⟩
  rcases hreach.at_board hF hv₀ hready with ⟨l, b, hrun, rfl, hat⟩
  -- Of all ways an iteration can end only one answers yes, the one in which no basic
  -- variable is broken.
  have hend : b.firstBroken = none ∧ At Shows t.state w'.state b l := by
    rcases iterate_cases hF hat (hrun.valid hv₀) with ⟨sat, hnext, hgives⟩ |
      ⟨_, _, _, _, hgives⟩ | ⟨_, _, _, _, hstops⟩ | ⟨_, _, hstops⟩
    · rcases hgives.result hit with ⟨heq, hat'⟩
      cases heq
      exact ⟨Board.next_eq_sat_iff.mp hnext, hat'⟩
    · cases (hgives.result hit).1
    · exact absurd hit hstops.not_ok
    · exact absurd hit hstops.not_ok
  have hat' : At Shows t.state u.state b l := ((finish_gives hend.2 true).result hfinish).2.2
  have hnum : b.numVars = p.numVars := hrun.same.numVars
  have hbasic : ∀ v < p.numVars, HasRole u v .basic → ∀ x, HasValue u v x →
      (p.bounds v).isBroken tolerance x = false := by
    intro v hv hrole x hx
    rw [← hnum] at hv
    have hunbroken := Board.firstBroken_eq_none hend.1 hv ((hasRole_iff hR hat' hv).mp hrole).symm
    rw [(hasValue_iff hR hat' hv).mp hx]
    rw [Board.isBroken, hrun.same.interval, hrun.same.tolerance] at hunbroken
    exact hunbroken
  have hnonbasic : ∀ v < p.numVars, HasRole u v .nonbasic → ∀ x,
      HasValue u v x ↔ RestsAt t u p.bounds v x := by
    intro v hv hrole x
    rw [← hnum] at hv
    have hrests := restsAt_iff (x := x) hF hR hv₀ hready hhistory hrun hat'
      (fun n hn => hall n (Nat.le_of_lt hn)) hv rfl ((hasRole_iff hR hat' hv).mp hrole).symm
    rw [hasValue_iff hR hat' hv]
    exact hrests.symm
  have hreported : ∀ v < p.numVars, ∃ x r, HasValue u v x ∧ HasRole u v r := by
    intro v hv
    rw [← hnum] at hv
    exact ⟨_, _, (hasValue_iff hR hat' hv).mpr rfl, (hasRole_iff hR hat' hv).mpr rfl⟩
  -- What is reported of a nonbasic variable is where it rests, so the two ways to
  -- speak of all variables agree.
  refine ⟨hreported, hbasic, hnonbasic, fun h v hv hrole x hx => ?_, fun h v hv x hx => ?_⟩
  · exact h v hv x ((hnonbasic v hv hrole x).mpr hx)
  · rcases hreported v hv with ⟨_, r, _, hr⟩
    cases r with
    | basic => exact hbasic v hv hr x hx
    | nonbasic => exact h v hv hr x ((hnonbasic v hv hr x).mp hx)

end Reports

end Solver

end BoundedSimplex
