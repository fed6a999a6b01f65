/-!
# Sets of Variables

Sets of variable numbers, scanned in ascending order.

The search always takes the lowest variable that qualifies, which is what
keeps it from running in circles. A set is therefore kept as its ascending
list, so that the first match of a scan is the lowest one.

## Main definitions

* `VarSet`: A set of variables.
* `VarSet.interval`: Consecutive variables.
* `VarSet.insert`, `VarSet.erase`: One variable more or less.

## Theorems

* `VarSet.mem_insert`, `VarSet.mem_erase`: The members afterwards.
-/

namespace BoundedSimplex

/-- A set of variables as its ascending list. The order is what makes the first hit of a
    scan the lowest. -/
structure VarSet where
  /-- The members in ascending order. -/
  members : List Nat
  /-- No member occurs twice or out of order. -/
  ascending : members.Pairwise (· < ·)

namespace VarSet

/-- An ascending list with one more member, which is put in its place. A member that is
    there already is not put in twice. -/
def insertInto (v : Nat) : List Nat → List Nat
  | [] => [v]
  | w :: rest => if v < w then v :: w :: rest else if v = w then w :: rest
    else w :: insertInto v rest

theorem mem_insertInto {v x : Nat} {l : List Nat} : x ∈ insertInto v l ↔ x = v ∨ x ∈ l := by
  induction l with
  | nil => simp [insertInto]
  | cons w rest ih =>
      unfold insertInto
      split
      · simp
      · split
        · subst_vars
          simp
        · simp only [List.mem_cons, ih]
          exact or_left_comm

theorem ascending_insertInto {v : Nat} {l : List Nat} (h : l.Pairwise (· < ·)) :
    (insertInto v l).Pairwise (· < ·) := by
  induction l with
  | nil => simp [insertInto]
  | cons w rest ih =>
      obtain ⟨hw, hr⟩ := List.pairwise_cons.1 h
      unfold insertInto
      split
      · rename_i hv
        refine List.pairwise_cons.2 ⟨fun x hx => ?_, h⟩
        rcases List.mem_cons.1 hx with rfl | hx
        · exact hv
        · exact Nat.lt_trans hv (hw x hx)
      · split
        · exact h
        · refine List.pairwise_cons.2 ⟨fun x hx => ?_, ih hr⟩
          rcases mem_insertInto.1 hx with rfl | hx
          · omega
          · exact hw x hx

instance : Membership Nat VarSet := ⟨fun s v => v ∈ s.members⟩

/-- The `count` variables from `first` on. -/
def interval (first count : Nat) : VarSet where
  members := List.range' first count
  ascending := List.pairwise_lt_range'

/-- The set with one more member. -/
def insert (s : VarSet) (v : Nat) : VarSet where
  members := insertInto v s.members
  ascending := ascending_insertInto s.ascending

/-- The set without a member. -/
def erase (s : VarSet) (v : Nat) : VarSet where
  members := s.members.filter (· ≠ v)
  ascending := s.ascending.filter _

theorem mem_insert {s : VarSet} {v x : Nat} : x ∈ s.insert v ↔ x = v ∨ x ∈ s := mem_insertInto

theorem mem_erase {s : VarSet} {v x : Nat} : x ∈ s.erase v ↔ x ∈ s ∧ x ≠ v := by
  show x ∈ s.members.filter (· ≠ v) ↔ x ∈ s.members ∧ x ≠ v
  simp [List.mem_filter]

theorem mem_interval {first count x : Nat} :
    x ∈ interval first count ↔ first ≤ x ∧ x < first + count := by
  show x ∈ List.range' first count ↔ _
  simp [List.mem_range'_1]

end VarSet

end BoundedSimplex
