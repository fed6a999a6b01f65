/-!
# Sweeps

A loop over a table in which every round fills cells of its own.

The exchange of a row with a column changes a table in place, in loops within
loops, and each formula reads cells that other rounds of the same loop leave
alone. That is the whole reason why the loops compute what the formulas say,
and it is said once here. A round owns the cells it writes. It may read the
cells it owns, which are still as they were before the loop, and the cells
that no round owns. If rounds own different cells, the loop fills every owned
cell with the value its formula has on the table before the loop.

The table is anything that can be read by a key, and a round may be carried
out in any monad, so that loops that could fail and loops that cannot are the
same loop.

## Theorems

* `sweep`: What a loop leaves when every round fills its own cells.
* `sweep_foldl`: The same for a loop that cannot fail.
* `foldlM_push`: A loop each round of which adds one item to a list.
-/

namespace BoundedSimplex

/-- What a loop leaves when every round fills its own cells: the owned cells
    hold their new values and the others what they held before. -/
theorem sweep {m : Type → Type} [Monad m] [LawfulMonad m] {S ι κ X : Type}
    (read : S → κ → Option X) (keeps : S → Prop) (own : ι → κ → Prop) (new : κ → X)
    (step : S → ι → m S) (l : List ι) :
    ∀ s₀ : S, keeps s₀ → (l.Pairwise fun i j => ∀ k, own i k → ¬ own j k) →
      (∀ i ∈ l, ∀ s, keeps s → (∀ k, own i k → read s k = read s₀ k) →
        (∀ k, (∀ j ∈ l, ¬ own j k) → read s k = read s₀ k) →
        ∃ s', step s i = pure s' ∧ keeps s' ∧ (∀ k, own i k → read s' k = some (new k)) ∧
          ∀ k, ¬ own i k → read s' k = read s k) →
      ∃ s, l.foldlM step s₀ = pure s ∧ keeps s ∧
        (∀ k, (∃ i ∈ l, own i k) → read s k = some (new k)) ∧
        ∀ k, (∀ i ∈ l, ¬ own i k) → read s k = read s₀ k := by
  induction l with
  | nil =>
      intro s₀ hkeeps _ _
      refine ⟨s₀, rfl, hkeeps, ?_, fun _ _ => rfl⟩
      rintro k ⟨i, hi, -⟩
      exact absurd hi (List.not_mem_nil)
  | cons i l ih =>
      intro s₀ hkeeps hown hstep
      rcases List.pairwise_cons.mp hown with ⟨hhead, htail⟩
      rcases hstep i List.mem_cons_self s₀ hkeeps (fun _ _ => rfl) (fun _ _ => rfl) with
        ⟨s₁, hrun, hkeeps₁, hnew, hrest⟩
      -- What the first round wrote belongs to no later round.
      have hlater : ∀ j ∈ l, ∀ k, own j k → read s₁ k = read s₀ k :=
        fun j hj k hjk => hrest k (fun hik => hhead j hj k hik hjk)
      rcases ih s₁ hkeeps₁ htail (fun j hj s hs hmine hfree => hstep j (List.mem_cons_of_mem i hj)
          s hs (fun k hjk => by rw [hmine k hjk, hlater j hj k hjk])
          (fun k hk => by
            rw [hfree k (fun j' hj' => hk j' (List.mem_cons_of_mem i hj')),
              hrest k (hk i List.mem_cons_self)])) with ⟨s, hfold, hkeeps', hset, hkept⟩
      refine ⟨s, by rw [List.foldlM_cons, hrun, pure_bind, hfold], hkeeps', ?_, ?_⟩
      · rintro k ⟨j, hj, hjk⟩
        by_cases hk : ∃ j ∈ l, own j k
        · exact hset k hk
        · -- Then the round that owns the cell is the first one.
          have hk' : ∀ j ∈ l, ¬ own j k := fun j hj hjk => hk ⟨j, hj, hjk⟩
          rcases List.mem_cons.mp hj with rfl | hj
          · rw [hkept k hk', hnew k hjk]
          · exact absurd hjk (hk' j hj)
      · intro k hk
        rw [hkept k (fun j hj => hk j (List.mem_cons_of_mem i hj)),
          hrest k (hk i List.mem_cons_self)]

/-- The same for a loop that cannot fail. Rounds own disjoint places, so each finds its own
    as they were at first. -/
theorem sweep_foldl {S ι κ X : Type} (read : S → κ → Option X) (keeps : S → Prop)
    (own : ι → κ → Prop) (new : κ → X) (step : S → ι → S) (l : List ι) (s₀ : S) (h₀ : keeps s₀)
    (hown : l.Pairwise fun i j => ∀ k, own i k → ¬ own j k)
    (hstep : ∀ i ∈ l, ∀ s, keeps s → (∀ k, own i k → read s k = read s₀ k) →
      (∀ k, (∀ j ∈ l, ¬ own j k) → read s k = read s₀ k) →
      keeps (step s i) ∧ (∀ k, own i k → read (step s i) k = some (new k)) ∧
        ∀ k, ¬ own i k → read (step s i) k = read s k) :
    keeps (l.foldl step s₀) ∧ (∀ k, (∃ i ∈ l, own i k) → read (l.foldl step s₀) k = some (new k)) ∧
      ∀ k, (∀ i ∈ l, ¬ own i k) → read (l.foldl step s₀) k = read s₀ k := by
  -- In the identity monad nothing can fail, so the run that `sweep` promises is the fold itself.
  rcases sweep (m := Id) read keeps own new (fun s i => pure (step s i)) l s₀ h₀ hown
    (fun i hi s hs hmine hfree => ⟨step s i, rfl, hstep i hi s hs hmine hfree⟩) with
    ⟨s, hfold, hrest⟩
  rw [List.foldlM_pure] at hfold
  have hs : l.foldl step s₀ = s := hfold
  rw [hs]
  exact hrest

/-- A loop each round of which adds one item. -/
theorem foldlM_push {m : Type → Type} [Monad m] [LawfulMonad m] {S X : Type} {step : S → Nat → m S}
    (hold : Array X → S) (item : Nat → X) (n : Nat)
    (hstep : ∀ i < n, ∀ xs, step (hold xs) i = pure (hold (xs.push (item i)))) :
    (List.range n).foldlM step (hold #[]) = pure (hold ((Array.range n).map item)) := by
  induction n with
  | zero =>
      simp only [List.range_zero, List.foldlM_nil, Array.range, Array.ofFn_zero, Array.map_empty]
  | succ n ih =>
      rw [List.range_succ, List.foldlM_append, ih fun i hi => hstep i (Nat.lt_succ_of_lt hi)]
      simp only [pure_bind, List.foldlM_cons, List.foldlM_nil, hstep n (Nat.lt_succ_self n),
        Array.range_succ, Array.map_append, Array.map_singleton, Array.push_eq_append]

end BoundedSimplex
