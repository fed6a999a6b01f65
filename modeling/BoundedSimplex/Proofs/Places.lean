import BoundedSimplex.Proofs.Bijection
import Mathlib.Data.Finset.Card

/-!
# What the Consistency Check Tells

How much of a basis can be lost without the check noticing.

The check goes from every column and every row to its owner, and from there to the
place that the owner has. It never starts at a variable. So it does not see a
variable that owns no place, and that can be: columns and rows are numbered from
zero alike, and a variable that owns the column and the row of one number has that
number as its place from both sides. Naming one variable twice in an exchange leads
there.

For tables made by exchanges of any variables, whatever their roles, this is the
only thing the check misses. It tells whether the owners are all variables, each of
them once, if no variable owns both a column and a row; and where it is content,
there are as many variables without a place as variables with two.

## Main definitions

* `Basis.Exchanged`: The tables that exchanges lead to.
* `Basis.IsBijection`: Every variable owns one place, which the third table gives.

## Theorems

* `Basis.isConsistent_iff`: What the check looks at.
* `Basis.isBijection_iff`: What it tells.
* `Basis.check_of_exchanged`: Both, for all tables that exchanges lead to.
-/

namespace BoundedSimplex

namespace Basis

/-- The tables that exchanges in range lead to, of variables of any kind. -/
inductive Exchanged (maxRows numCols : Nat) : Basis → Prop where
  | initial : Exchanged maxRows numCols (initial maxRows numCols)
  | swap {b b' : Basis} {places : Nat × Nat} (leaving entering : Nat) :
      Exchanged maxRows numCols b → b.swap? leaving entering = some (places, b') →
      Exchanged maxRows numCols b'

/-- The owners of the columns and then of the rows are all variables, each of them once, and
    the third table gives the place of each. Roles are left out of this, because the check
    does not look at them. -/
structure IsBijection (b : Basis) : Prop where
  perm : (b.colVar.toList ++ b.rowVar.toList).Perm (List.range b.place.size)
  col : ∀ c v : Nat, b.colVar? c = some v → b.place? v = some c
  row : ∀ r v : Nat, b.rowVar? r = some v → b.place? v = some r

variable {b : Basis} {maxRows numCols : Nat}

/-! ### The check -/

/-- What one half of the check looks at. -/
theorem all_place_iff {table : Array Nat} :
    ((List.range table.size).all fun i => (table[i]?).bind b.place? == some i) = true ↔
      ∀ i v : Nat, table[i]? = some v → b.place? v = some i := by
  rw [List.all_eq_true]
  constructor
  · intro h i v hv
    have hi := h i (List.mem_range.mpr (Array.getElem?_eq_some_iff.mp hv).1)
    rw [hv] at hi
    exact eq_of_beq hi
  · intro h i hi
    have hget := Array.getElem?_eq_getElem (List.mem_range.mp hi)
    rw [hget]
    exact beq_iff_eq.mpr (h i _ hget)

/-- The check looks from every column and every row to its owner and back. No line of it
    begins at a variable. -/
theorem isConsistent_iff : b.isConsistent = true ↔
    (∀ c v : Nat, b.colVar? c = some v → b.place? v = some c) ∧
      ∀ r v : Nat, b.rowVar? r = some v → b.place? v = some r := by
  rw [isConsistent, Bool.and_eq_true, all_place_iff, all_place_iff]
  rfl

/-- A table that leads back names no owner twice. -/
theorem nodup_of_place {table : Array Nat}
    (h : ∀ i v : Nat, table[i]? = some v → b.place? v = some i) : table.toList.Nodup := by
  refine Matches.nodup_of_injective (f := fun i => (table[i]?).getD 0) (fun i hi => ?_) ?_
  · rw [Array.getElem?_eq_getElem hi, Option.getD_some]
  · intro i hi i' hi' heq
    have hget := Array.getElem?_eq_getElem hi
    have hget' := Array.getElem?_eq_getElem hi'
    simp only [hget, hget', Option.getD_some] at heq
    have hplace := h i _ hget
    rw [heq, h i' _ hget'] at hplace
    exact (Option.some.inj hplace).symm

/-- It names variables only. -/
theorem lt_of_place {table : Array Nat}
    (h : ∀ i v : Nat, table[i]? = some v → b.place? v = some i) {v : Nat} (hv : v ∈ table) :
    v < b.place.size := by
  rcases Array.mem_iff_getElem?.mp hv with ⟨i, hi⟩
  exact (Array.getElem?_eq_some_iff.mp (h i v hi)).1

/-! ### What it tells -/

/-- The check tells a bijection where no variable owns both a column and a row. Then there
    are as many owners as places, and so every variable is one. -/
theorem isBijection_iff (hsize : b.place.size = b.colVar.size + b.rowVar.size) :
    b.IsBijection ↔ b.isConsistent = true ∧ ∀ v ∈ b.colVar, v ∉ b.rowVar := by
  rw [isConsistent_iff]
  constructor
  · intro h
    refine ⟨⟨h.col, h.row⟩, fun v hcol hrow => ?_⟩
    have hnodup := h.perm.nodup_iff.mpr List.nodup_range
    exact (List.nodup_append.mp hnodup).2.2 v (Array.mem_toList_iff.mpr hcol) v
      (Array.mem_toList_iff.mpr hrow) rfl
  · rintro ⟨⟨hcol, hrow⟩, hapart⟩
    refine ⟨?_, hcol, hrow⟩
    -- As many different variables as there are places are all of them.
    have hnodup : (b.colVar.toList ++ b.rowVar.toList).Nodup := by
      refine List.nodup_append.mpr ⟨nodup_of_place hcol, nodup_of_place hrow, ?_⟩
      rintro v hv _ hv' rfl
      exact hapart v (Array.mem_toList_iff.mp hv) (Array.mem_toList_iff.mp hv')
    have hsubset : b.colVar.toList ++ b.rowVar.toList ⊆ List.range b.place.size := by
      intro v hv
      rw [List.mem_range]
      rcases List.mem_append.mp hv with hv | hv
      · exact lt_of_place hcol (Array.mem_toList_iff.mp hv)
      · exact lt_of_place hrow (Array.mem_toList_iff.mp hv)
    refine (hnodup.subperm hsubset).perm_of_length_le ?_
    rw [List.length_range, List.length_append, Array.length_toList, Array.length_toList, hsize]

/-- Where the check is content, as many variables are without a place as have two. -/
theorem card_unplaced (hsize : b.place.size = b.colVar.size + b.rowVar.size)
    (h : b.isConsistent = true) :
    (Finset.range b.place.size \
        (b.colVar.toList.toFinset ∪ b.rowVar.toList.toFinset)).card
      = (b.colVar.toList.toFinset ∩ b.rowVar.toList.toFinset).card := by
  rcases isConsistent_iff.mp h with ⟨hcol, hrow⟩
  -- Neither table names a variable twice, since its place could only be one of the two.
  have hcols := List.toFinset_card_of_nodup (nodup_of_place hcol)
  have hrows := List.toFinset_card_of_nodup (nodup_of_place hrow)
  have hsubset : b.colVar.toList.toFinset ∪ b.rowVar.toList.toFinset ⊆
      Finset.range b.place.size := by
    intro v hv
    rw [Finset.mem_range]
    rcases Finset.mem_union.mp hv with hv | hv
    · exact lt_of_place hcol (Array.mem_toList_iff.mp (List.mem_toFinset.mp hv))
    · exact lt_of_place hrow (Array.mem_toList_iff.mp (List.mem_toFinset.mp hv))
  -- There are as many variables as places, so those that are counted twice make up for those that
  -- are missing.
  have hunion := Finset.card_union_add_card_inter b.colVar.toList.toFinset b.rowVar.toList.toFinset
  rw [Finset.card_sdiff_of_subset hsubset, Finset.card_range, hsize]
  rw [Array.length_toList] at hcols hrows
  omega

/-! ### Exchanges -/

/-- An exchange in range keeps the sizes of the tables. -/
theorem size_of_swap {b' : Basis} {places : Nat × Nat} {leaving entering : Nat}
    (h : b.swap? leaving entering = some (places, b')) :
    b'.colVar.size = b.colVar.size ∧ b'.rowVar.size = b.rowVar.size ∧
      b'.place.size = b.place.size := by
  unfold swap? at h
  simp only [Option.bind_eq_bind, Option.bind_eq_some_iff] at h
  rcases h with ⟨row, -, col, -, h⟩
  split at h
  · cases h
    simp only [Array.size_setIfInBounds, and_self]
  · cases h

theorem Exchanged.size (h : b.Exchanged maxRows numCols) :
    b.colVar.size = numCols % UInt32.size ∧ b.rowVar.size = maxRows % UInt32.size ∧
      b.place.size = numCols % UInt32.size + maxRows % UInt32.size := by
  induction h with
  | initial =>
      have hmatches := matches_ofDimensions (maxRows % UInt32.size) (numCols % UInt32.size)
      exact ⟨hmatches.size_colVar, hmatches.size_rowVar, hmatches.size_place⟩
  | swap _ _ _ hswap ih =>
      rw [(size_of_swap hswap).1, (size_of_swap hswap).2.1, (size_of_swap hswap).2.2]
      exact ih

/-- What the check tells about tables that exchanges lead to, where rows and columns are
    counted in words. They are a bijection exactly where the check is content and no
    variable owns both a column and a row. Where it is content, a variable that owns both
    goes with one that owns nothing. It walks from places to owners and back, so a variable
    without a place is never met. -/
theorem check_of_exchanged (h : b.Exchanged maxRows numCols) :
    b.place.size = numCols % UInt32.size + maxRows % UInt32.size ∧
    (b.IsBijection ↔ b.isConsistent = true ∧ ∀ v ∈ b.colVar, v ∉ b.rowVar) ∧
    (b.isConsistent = true →
      (Finset.range b.place.size \
          (b.colVar.toList.toFinset ∪ b.rowVar.toList.toFinset)).card
        = (b.colVar.toList.toFinset ∩ b.rowVar.toList.toFinset).card) := by
  rcases h.size with ⟨hcols, hrows, hplaces⟩
  have hsize : b.place.size = b.colVar.size + b.rowVar.size := by rw [hplaces, hcols, hrows]
  exact ⟨hplaces, isBijection_iff hsize, card_unplaced hsize⟩

/-- The tables of one row and one column after an exchange of a variable with itself. -/
def doubled : Basis := ⟨#[0], #[0], #[0, 0]⟩

theorem doubled_exchanged : doubled.Exchanged 1 1 :=
  .swap 0 0 .initial (show (initial 1 1).swap? 0 0 = some ((0, 0), doubled) by decide +kernel)

/-- The problem variable owns both places, the slack neither, and the check is content. -/
theorem check_of_exchanged_doubled :
    doubled.isConsistent = true ∧ ¬ doubled.IsBijection ∧
      (Finset.range 2 \ (({0} : Finset Nat) ∪ {0})).card = (({0} : Finset Nat) ∩ {0}).card := by
  have hcheck := check_of_exchanged doubled_exchanged
  have hcontent : doubled.isConsistent = true := by decide
  refine ⟨hcontent, fun h => ?_, hcheck.2.2 hcontent⟩
  exact (hcheck.2.1.mp h).2 0 (Array.mem_iff_getElem?.mpr ⟨0, rfl⟩)
    (Array.mem_iff_getElem?.mpr ⟨0, rfl⟩)

/-- So the check does not tell a bijection. -/
theorem not_isBijection_of_isConsistent :
    ¬ ∀ (maxRows numCols : Nat) (b : Basis), b.Exchanged maxRows numCols →
      (b.isConsistent = true ↔ b.IsBijection) := by
  intro h
  have hbijection := (h 1 1 doubled doubled_exchanged).mp (by decide)
  exact ((isBijection_iff (by decide)).mp hbijection).2 0 (Array.mem_iff_getElem?.mpr ⟨0, rfl⟩)
    (Array.mem_iff_getElem?.mpr ⟨0, rfl⟩)

end Basis

end BoundedSimplex
