import BoundedSimplex.Kernel.Run
import BoundedSimplex.Proofs.Workgroup

/-!
# How a Kernel Ends

What a launch does to the memory, for every kernel and all arguments.

A kernel body has two parts. In the first it looks for its buffers and checks
their sizes, and here it may refuse; it has replaced no word by then. In the
second it goes through its work items. It refuses no more, but it reads tables
at indices that it has found in other tables, and nothing guards these. So there
are two conditions. If the kernel does not accept its arguments, the memory is as
before. If it does and all indices stay inside their tables, it replaces words of
its output. If it accepts them and an index does not, the output is lost.

The conditions are read off from the body part by part. A part that checks has
its condition in `Body.Checks`, a part that works in `Body.Works`, and
`Body.Settles` puts them together.

## Main definitions

* `Body.Checks`, `Body.Works`, `Body.Settles`: How a part of a body ends.
* `Body.Hands`: What is known of the result of a part.
* `Entry.output`, `Entry.inputs`: The buffer a kernel writes and those it reads.
* `Invocation.Accepts`: The kernel finds its buffers, of the sizes it checks.
* `Invocation.Stays`: No index that it does not check is outside a table.
* `Invocation.Settles`: How a launch ends.

## Theorems

* `Invocation.withOutput_settles`: A body between detaching and putting back.
* `Invocation.run_settles`: How each of the nine kernels ends.
-/

namespace BoundedSimplex

/-! ### Memory -/

namespace Memory

/-- A buffer that keeps its words leaves the memory as it was. -/
theorem store_self {m : Memory} {id : Nat} {ws : Words} (h : m.words? id = some ws) :
    m.store id ws = m := by
  rw [words?, Option.join_eq_some_iff] at h
  rw [store]
  refine congrArg Memory.mk (Array.ext_getElem? fun other => ?_)
  rw [Array.getElem?_setIfInBounds]
  by_cases heq : id = other
  · subst heq
    rcases Array.getElem?_eq_some_iff.mp h with ⟨hlt, -⟩
    rw [if_pos rfl, if_pos hlt, h]
  · rw [if_neg heq]

/-- A memory in which the words of one buffer may have been replaced, by as many. -/
inductive Rewritten (m : Memory) (id : Nat) : Memory → Prop where
  | same : Rewritten m id m
  | words {old : Words} (ws : Words) : m.words? id = some old → ws.size = old.size →
      Rewritten m id (m.store id ws)

end Memory

/-! ### Parts of a body -/

namespace Body

variable {α β : Type}

/-- A part that changes nothing and gives `a`, or refuses where the condition does not hold.
    It comes before the parts that work, so a launch that is refused has written nothing. -/
structure Checks (x : Body α) (out : Words) (accepts : Prop) (a : α) : Prop where
  passes : accepts → x out = .ok a out
  refuses : ¬ accepts → ∃ e, x out = .error (.error e) out

/-- A part that refuses nothing. It comes to an end, with an output of the same length,
    exactly where the condition holds. Otherwise an index leaves a table, and what was
    written until then is lost with the output. -/
structure Works (x : Body α) (out : Words) (stays : Prop) : Prop where
  ends : stays → ∃ a out', out'.size = out.size ∧ x out = .ok a out'
  leaves : ¬ stays → ∃ out', x out = .error .outOfRange out'

/-- A body that checks first and then works. All bodies of the host device are of this
    shape, and how a launch ends depends on no more than the two conditions. -/
structure Settles (x : Body Unit) (out : Words) (accepts stays : Prop) : Prop where
  refuses : ¬ accepts → ∃ e, x out = .error (.error e) out
  works : accepts → x.Works out stays

/-- What a part hands on to the next one satisfies `I`. Sizes that one part has checked are
    used by another one in this way. -/
def Hands (x : Body α) (I : α → Prop) : Prop := ∀ out a out', x out = .ok a out' → I a

variable {x : Body α} {f : α → Body β} {out : Words} {A B S T : Prop} {a : α} {b : β}

theorem bind_error {e : Stop} {out' : Words} (h : x out = .error e out') :
    (x >>= f) out = .error e out' := by
  simp only [Bind.bind, EStateM.bind, h]

namespace Checks

theorem bind (hx : x.Checks out A a) (hf : (f a).Checks out B b) :
    (x >>= f).Checks out (A ∧ B) b := by
  refine ⟨fun h => (bind_ok (hx.passes h.1)).trans (hf.passes h.2), fun h => ?_⟩
  by_cases hA : A
  · rcases hf.refuses fun hB => h ⟨hA, hB⟩ with ⟨e, he⟩
    exact ⟨e, (bind_ok (hx.passes hA)).trans he⟩
  · rcases hx.refuses hA with ⟨e, he⟩
    exact ⟨e, bind_error he⟩

theorem pure (a : α) : (Pure.pure a : Body α).Checks out True a :=
  ⟨fun _ => rfl, fun h => absurd trivial h⟩

/-- A result that is a refusal unless the condition holds. -/
theorem ofExcept {r : Except Stop α} (hok : A → r = .ok a)
    (herror : ¬ A → ∃ e, r = .error (.error e)) : (Body.ofExcept r).Checks out A a := by
  refine ⟨fun h => ?_, fun h => ?_⟩
  · rw [hok h]
    rfl
  · rcases herror h with ⟨e, he⟩
    refine ⟨e, ?_⟩
    rw [he]
    rfl

theorem output : Body.output.Checks out True out := ⟨fun _ => rfl, fun h => absurd trivial h⟩

theorem need (inv : Invocation) (what : String) (size required : Nat) :
    (inv.need what size required).Checks out (required ≤ size) () := by
  refine ofExcept (fun h => if_neg (Nat.not_lt.mpr h)) fun h => ⟨_, if_pos (Nat.not_le.mp h)⟩

end Checks

namespace Hands

variable {I : α → Prop} {J : β → Prop}

theorem trivial : x.Hands fun _ => True := fun _ _ _ _ => True.intro

theorem pure (h : I a) : (Pure.pure a : Body α).Hands I := by
  rintro out _ _ ⟨⟩
  exact h

theorem bind (hx : x.Hands I) (hf : ∀ a, I a → (f a).Hands J) : (x >>= f).Hands J := by
  intro out b out₂ hrun
  cases hxrun : x out with
  | ok a out₁ =>
      rw [bind_ok hxrun] at hrun
      exact hf a (hx out a out₁ hxrun) out₁ b out₂ hrun
  | error e out₁ =>
      rw [bind_error hxrun] at hrun
      cases hrun

/-- What each step keeps is handed on to the end. -/
theorem foldlM {γ : Type} {g : β → γ → Body β} (h : ∀ b c, J b → (g b c).Hands J) (l : List γ) :
    ∀ b, J b → (l.foldlM g b).Hands J := by
  induction l with
  | nil => exact fun _ hb => .pure hb
  | cons c rest ih =>
      intro b hb
      rw [List.foldlM_cons]
      exact (h b c hb).bind ih

end Hands

namespace Works

/-- One part after another, which may rely on what it is handed. -/
theorem next {I : α → Prop} (hx : x.Works out S) (hI : x.Hands I)
    (hf : ∀ a out', I a → out'.size = out.size → (f a).Works out' T) :
    (x >>= f).Works out (S ∧ T) := by
  refine ⟨fun ⟨hS, hT⟩ => ?_, fun h => ?_⟩
  · rcases hx.ends hS with ⟨a, out₁, hsize₁, hrun₁⟩
    rcases (hf a out₁ (hI _ _ _ hrun₁) hsize₁).ends hT with ⟨b, out₂, hsize₂, hrun₂⟩
    exact ⟨b, out₂, hsize₂.trans hsize₁, (bind_ok hrun₁).trans hrun₂⟩
  · by_cases hS : S
    · rcases hx.ends hS with ⟨a, out₁, hsize₁, hrun₁⟩
      rcases (hf a out₁ (hI _ _ _ hrun₁) hsize₁).leaves fun hT => h ⟨hS, hT⟩ with ⟨out₂, hrun₂⟩
      exact ⟨out₂, (bind_ok hrun₁).trans hrun₂⟩
    · rcases hx.leaves hS with ⟨out₁, hrun₁⟩
      exact ⟨out₁, bind_error hrun₁⟩

theorem bind (hx : x.Works out S)
    (hf : ∀ a out', out'.size = out.size → (f a).Works out' T) : (x >>= f).Works out (S ∧ T) :=
  hx.next .trivial fun a out' _ => hf a out'

theorem congr (hx : x.Works out S) (h : S ↔ T) : x.Works out T :=
  ⟨fun hT => hx.ends (h.mpr hT), fun hT => hx.leaves (mt h.mp hT)⟩

theorem pure (a : α) : (Pure.pure a : Body α).Works out True :=
  ⟨fun _ => ⟨a, out, rfl, rfl⟩, fun h => absurd trivial h⟩

theorem outOfRange : (throw Stop.outOfRange : Body α).Works out False :=
  ⟨False.elim, fun _ => ⟨out, rfl⟩⟩

theorem write {g : Words → Words} (h : (g out).size = out.size) :
    (Body.write g).Works out True :=
  ⟨fun _ => ⟨(), g out, h, rfl⟩, fun h => absurd trivial h⟩

/-- An entry at an index that nothing guards. -/
theorem entry_bind {o : Option α} {U : α → Prop} (hf : ∀ a, (f a).Works out (U a)) :
    (Body.entry o >>= f).Works out (∃ a, o = some a ∧ U a) := by
  cases o with
  | none =>
      refine ⟨?_, fun _ => ⟨out, rfl⟩⟩
      rintro ⟨a, ha, -⟩
      cases ha
  | some a =>
      exact (hf a).congr ⟨fun h => ⟨a, rfl, h⟩, fun ⟨_, ha, h⟩ => Option.some.inj ha ▸ h⟩

/-- What follows a look at the output. -/
theorem output_bind {g : Words → Body β} (h : (g out).Works out S) :
    (Body.output >>= g).Works out S :=
  ⟨fun hS => h.ends hS, fun hS => h.leaves hS⟩

theorem entry (o : Option α) : (Body.entry o).Works out (o.isSome = true) := by
  cases o with
  | none => exact ⟨nofun, fun _ => ⟨out, rfl⟩⟩
  | some a => exact ⟨fun _ => ⟨a, out, rfl, rfl⟩, fun h => absurd rfl h⟩

theorem ite {p : Prop} [Decidable p] {y : Body α} (hx : p → x.Works out S)
    (hy : ¬ p → y.Works out T) : (if p then x else y).Works out ((p → S) ∧ (¬ p → T)) := by
  by_cases hp : p
  · rw [if_pos hp]
    exact (hx hp).congr ⟨fun h => ⟨fun _ => h, fun hn => absurd hp hn⟩, fun h => h.1 hp⟩
  · rw [if_neg hp]
    exact (hy hp).congr ⟨fun h => ⟨fun h' => absurd h' hp, fun _ => h⟩, fun h => h.2 hp⟩

/-- Work items one after the other, each of which hands something on. What an item
    needs must not depend on what the others have replaced. -/
theorem foldlM {γ : Type} {g : β → γ → Body β} {l : List γ} {U : γ → Prop} {J : β → Prop}
    (hkeep : ∀ b c, J b → (g b c).Hands J)
    (h : ∀ c ∈ l, ∀ b out', J b → out'.size = out.size → (g b c).Works out' (U c)) :
    ∀ b, J b → (l.foldlM g b).Works out (∀ c ∈ l, U c) := by
  induction l generalizing out with
  | nil => exact fun b _ => (Works.pure b).congr ⟨nofun, fun _ => trivial⟩
  | cons c rest ih =>
      intro b hb
      rw [List.foldlM_cons, List.forall_mem_cons]
      exact (h c List.mem_cons_self b out hb rfl).next (hkeep b c hb) fun b' out' hb' hsize => ih
        (fun c' hc' b out₂ hb₂ hsize₂ => h c' (List.mem_cons_of_mem _ hc') b out₂ hb₂
          (hsize₂.trans hsize)) b' hb'

theorem forM {γ : Type} {item : γ → Body Unit} {l : List γ} {U : γ → Prop}
    (h : ∀ c ∈ l, ∀ out', out'.size = out.size → (item c).Works out' (U c)) :
    (l.forM item).Works out (∀ c ∈ l, U c) := by
  induction l generalizing out with
  | nil => exact (Works.pure ()).congr ⟨nofun, fun _ => trivial⟩
  | cons c rest ih =>
      rw [List.forM_eq_forM, List.forM_cons, List.forall_mem_cons]
      exact (h c List.mem_cons_self out rfl).bind fun _ out' hsize => ih
        fun c' hc' out₂ hsize₂ => h c' (List.mem_cons_of_mem _ hc') out₂ (hsize₂.trans hsize)

end Works

namespace Settles

variable {y : Body Unit} {g : α → Body Unit}

theorem check (hx : x.Checks out A a) (hg : A → (g a).Settles out B S) :
    (x >>= g).Settles out (A ∧ B) S := by
  refine ⟨fun h => ?_, fun h => ?_⟩
  · by_cases hA : A
    · rcases (hg hA).refuses fun hB => h ⟨hA, hB⟩ with ⟨e, he⟩
      exact ⟨e, (bind_ok (hx.passes hA)).trans he⟩
    · rcases hx.refuses hA with ⟨e, he⟩
      exact ⟨e, bind_error he⟩
  · have hrun : (x >>= g) out = g a out := bind_ok (hx.passes h.1)
    have hworks := (hg h.1).works h.2
    refine ⟨fun hS => ?_, fun hS => ?_⟩
    · rw [hrun]
      exact hworks.ends hS
    · rw [hrun]
      exact hworks.leaves hS

theorem work (hy : y.Works out S) : y.Settles out True S :=
  ⟨fun h => absurd trivial h, fun _ => hy⟩

theorem congr (hy : y.Settles out A S) (hA : A ↔ B) (hS : B → (S ↔ T)) : y.Settles out B T :=
  ⟨fun h => hy.refuses (mt hA.mp h), fun h => (hy.works (hA.mpr h)).congr (hS h)⟩

end Settles

end Body

/-! ### Conditions -/

/-- Where the output stands among the buffers of a kernel. -/
def Entry.output : Entry → Nat
  | .checkBounds => 5
  | .findSuitable => 7
  | .findSuitableComplete => 4
  | .pivotUpdateInner => 0
  | .pivotUpdateRow => 0
  | .pivotUpdateColumn => 0
  | .updateAssignment => 3
  | .reducePartialSums => 1
  | .updateAssignmentComplete => 1

theorem Entry.output_lt (e : Entry) : e.output < e.bufferCount := by
  cases e <;> decide

/-- The buffers of a kernel besides its output. -/
def Entry.inputs (e : Entry) : List Nat := (List.range e.bufferCount).filter (· ≠ e.output)

/-- There is a cell in the row of one variable and the column of another, as a table
    of places has them. -/
def Words.HasCell (tableau places : Words) (numCols rowVar colVar : Nat) : Prop :=
  ∃ row col : UInt32, places[rowVar]? = some row ∧ places[colVar]? = some col ∧
    row.toNat * numCols + col.toNat < tableau.size

namespace Words

theorem isSome_of_lt {ws : Words} {i : Nat} (h : i < ws.size) : (ws[i]?).isSome = true := by
  rw [Array.getElem?_eq_getElem h]
  rfl

theorem lt_size {ws : Words} {i : Nat} {w : UInt32} (h : ws[i]? = some w) : i < ws.size :=
  (Array.getElem?_eq_some_iff.mp h).1

theorem lt_size_of_number {ws : Words} {i : Nat} {x : Binary32} (h : ws.number? i = some x) :
    i < ws.size :=
  let ⟨_, hw, _⟩ := Option.map_eq_some_iff.mp h
  lt_size hw

theorem exists_number (ws : Words) (i : Nat) (h : i < ws.size) : ∃ x, ws.number? i = some x :=
  ⟨_, congrArg (Option.map Binary32.mk) (Array.getElem?_eq_getElem h)⟩

end Words

namespace Invocation

/-- What a buffer holds, or no words if there is none. -/
def contents (inv : Invocation) (m : Memory) (i : Nat) : Words :=
  (m.words? (inv.buffer i)).getD #[]

/-- The bounds in three buffers that follow one another. -/
def view (inv : Invocation) (m : Memory) (first : Nat) : BoundView :=
  ⟨inv.contents m first, inv.contents m (first + 1), inv.contents m (first + 2)⟩

/-- A buffer that is there and is not the output. -/
def Readable (inv : Invocation) (m : Memory) (output i : Nat) : Prop :=
  inv.buffer i ≠ inv.buffer output ∧ (m.words? (inv.buffer i)).isSome = true

/-- The workgroup can be halved down to one item. -/
def Halves (inv : Invocation) : Prop :=
  inv.size.group.x ≠ 0 ∧ floorPow2 inv.size.group.x = inv.size.group.x

/-- The buffers have the sizes that the kernel checks. -/
def Fits (inv : Invocation) (m : Memory) : Prop :=
  let length i := (inv.contents m i).size
  match inv.entry with
  | .checkBounds =>
    inv.nat 0 ≤ min (length 0) (length 1) ∧ inv.nat 0 ≤ min (length 3) (length 4) ∧ 1 ≤ length 5
  | .findSuitable =>
    inv.nat 0 ≤ min (length 4) (length 5) ∧ inv.nat 0 ≤ length 6 ∧ 1 ≤ length 7
  | .findSuitableComplete => max (inv.nat 1) (inv.nat 2) + 1 ≤ length 4
  | .pivotUpdateInner => inv.nat 3 * inv.nat 4 ≤ length 0
  | .pivotUpdateRow => (inv.nat 1 + 1) * inv.nat 3 ≤ length 0
  | .pivotUpdateColumn => inv.nat 3 * inv.nat 4 ≤ length 0
  | .updateAssignment =>
    (inv.nat 1 + 1) * inv.nat 0 ≤ length 0 ∧ inv.nat 0 ≤ length 2 ∧ inv.Halves ∧
      inv.size.groups.x ≤ length 3
  | .reducePartialSums => inv.nat 0 ≤ length 0 ∧ inv.Halves ∧ inv.size.groups.x ≤ length 1
  | .updateAssignmentComplete =>
    inv.Halves ∧ inv.nat 0 ≤ inv.size.group.x ∧ inv.nat 0 ≤ length 0 ∧ inv.nat 1 + 1 ≤ length 1

/-- The kernel does not refuse its arguments: it finds its buffers, none of them is
    the output a second time, and they have the sizes that it checks. A tableau
    without columns has no inner part, so then nothing is looked for. -/
def Accepts (inv : Invocation) (m : Memory) : Prop :=
  (inv.entry = .pivotUpdateInner ∧ inv.nat 4 = 0) ∨
    inv.Finds m inv.entry.bufferCount inv.entry.output (inv.contents m) ∧ inv.Fits m

/-- What the kernel reads without a check is there: the bounds of the variables that
    a scan looks at, the cells at the places of variables, the row and the column that
    an exchange names, and the values of the column variables. -/
def Stays (inv : Invocation) (m : Memory) : Prop :=
  let words := inv.contents m
  match inv.entry with
  | .checkBounds => ∀ var, inv.nat 1 ≤ var → var < min (inv.nat 1 + inv.size.spanX) (inv.nat 0) →
      (words 4)[var]? = some Role.basic.flag → ((inv.view m 0).interval? var).isSome = true
  | .findSuitable =>
    (inv.nat 2 < (words 6).size ∧ inv.nat 2 < (words 4).size ∧
      ((inv.view m 1).interval? (inv.nat 2)).isSome = true) ∧
    ∀ var, inv.nat 3 ≤ var → var < min (inv.nat 3 + inv.size.spanX) (inv.nat 0) →
      (words 5)[var]? = some Role.nonbasic.flag →
      (words 0).HasCell (words 6) (inv.nat 1) (inv.nat 2) var ∧
        ((inv.view m 1).interval? var).isSome = true
  | .findSuitableComplete =>
    (words 0).HasCell (words 5) (inv.nat 0) (inv.nat 1) (inv.nat 2) ∧
      ((inv.view m 1).interval? (inv.nat 1)).isSome = true
  | .pivotUpdateInner => inv.nat 4 = 0 ∨ (inv.nat 1 + 1) * inv.nat 4 ≤ (words 0).size ∧
      ∀ r < min inv.size.spanY (inv.nat 3), r ≠ inv.nat 1 → inv.nat 2 < inv.nat 4
  | .pivotUpdateColumn => ∀ r < min inv.size.spanX (inv.nat 3), r ≠ inv.nat 1 →
      r * inv.nat 4 + inv.nat 2 < (words 0).size
  | .updateAssignment => ∀ c < min inv.size.spanX (inv.nat 0), ∀ var : UInt32,
      (words 2)[c]? = some var → var.toNat < (words 1).size
  | .pivotUpdateRow | .reducePartialSums | .updateAssignmentComplete => True

/-- How a launch ends. A refusal leaves the memory as it was, a launch that works replaces
    words of its output, and one that does not stay in its tables loses it. The output is
    taken out of the memory while the body runs, and it is put back only when the body
    returns. -/
structure Settles (inv : Invocation) (m : Memory) (run : KernelRun) (accepts stays : Prop) :
    Prop where
  refuses : ¬ accepts → ∃ e, run m = (.error (.error e), m)
  leaves : accepts → ¬ stays →
    run m = (.error .outOfRange, m.release (inv.buffer inv.entry.output))
  ends : accepts → stays → ∃ m', m.Rewritten (inv.buffer inv.entry.output) m' ∧
    run m = (.ok (), m')

variable {inv : Invocation} {m : Memory} {n output i : Nat} {A B S T : Prop} {out : Words}

theorem contents_eq {ws : Words} (h : m.words? (inv.buffer i) = some ws) :
    inv.contents m i = ws := by
  rw [contents, h, Option.getD_some]

theorem finds_iff (hlt : output < n) : inv.Finds m n output (inv.contents m) ↔
    (m.words? (inv.buffer output)).isSome = true ∧
      ∀ i < n, i ≠ output → inv.Readable m output i := by
  -- `contents` is total: of a buffer that is not there it makes an empty one, so it is compared
  -- with what the memory holds.
  have hsome : ∀ i, m.words? (inv.buffer i) = some (inv.contents m i) ↔
      (m.words? (inv.buffer i)).isSome = true := by
    intro i
    rw [contents]
    cases m.words? (inv.buffer i) with
    | none => exact ⟨nofun, nofun⟩
    | some _ => exact ⟨fun _ => rfl, fun _ => rfl⟩
  constructor
  · intro h
    exact ⟨(hsome _).mp (h.words output hlt), fun i hi hne =>
      ⟨h.apart i hi hne, (hsome _).mp (h.words i hi)⟩⟩
  · rintro ⟨hout, hothers⟩
    refine ⟨fun i hi => ?_, fun i hi hne => (hothers i hi hne).1, hlt⟩
    -- The output is the one buffer for which nothing is asked about being apart.
    by_cases hne : i = output
    · rw [hne]
      exact (hsome _).mpr hout
    · exact (hsome _).mpr (hothers i hi hne).2

/-- Outside the inner part of an exchange, accepting is finding and fitting. -/
theorem accepts_iff {e : Entry} (h : inv.entry = e) (hinner : e ≠ .pivotUpdateInner) :
    inv.Accepts m ↔ (m.words? (inv.buffer e.output)).isSome = true ∧
      (∀ i ∈ e.inputs, inv.Readable m e.output i) ∧ inv.Fits m := by
  subst h
  simp only [Entry.inputs, List.mem_filter, List.mem_range, decide_eq_true_eq, and_imp]
  rw [← and_assoc, ← finds_iff inv.entry.output_lt]
  exact or_iff_right fun h => hinner h.1

theorem Settles.congr {run : KernelRun} (h : inv.Settles m run A S) (hA : A ↔ B)
    (hS : B → (S ↔ T)) : inv.Settles m run B T :=
  ⟨fun hB => h.refuses (mt hA.mp hB),
    fun hB hT => h.leaves (hA.mpr hB) (mt (hS hB).mp hT),
    fun hB hT => h.ends (hA.mpr hB) ((hS hB).mpr hT)⟩

theorem Settles.refused {run : KernelRun} {e : Error} (h : run m = (.error (.error e), m)) :
    inv.Settles m run False S :=
  ⟨fun _ => ⟨e, h⟩, False.elim, False.elim⟩

/-- The output is put back but for an index outside a table. An error returns through the
    wrapper like a result does, and the index does not return at all. -/
theorem withOutput_settles {body : Memory → Body Unit} (hout : inv.entry.output = output)
    (h : (body (m.release (inv.buffer output))).Settles (inv.contents m output) A S) :
    inv.Settles m (inv.withOutput output body)
      ((m.words? (inv.buffer output)).isSome = true ∧ A) S := by
  subst hout
  unfold withOutput
  cases hws : m.words? (inv.buffer inv.entry.output) with
  | none =>
      refine ⟨fun _ => ?_, fun hacc => ?_, fun hacc => ?_⟩
      · simp only [hws]
        exact ⟨_, rfl⟩
      · cases hacc.1
      · cases hacc.1
  | some ws =>
      rw [contents_eq hws] at h
      refine ⟨fun hacc => ?_, fun hacc hS => ?_, fun hacc hS => ?_⟩
      · -- The refusal found the words as they were.
        rcases h.refuses fun hA => hacc ⟨rfl, hA⟩ with ⟨e, he⟩
        refine ⟨e, ?_⟩
        simp only [hws, he, Memory.store_release, Memory.store_self hws]
      · rcases (h.works hacc.2).leaves hS with ⟨ws', hrun⟩
        simp only [hws, hrun]
      · rcases (h.works hacc.2).ends hS with ⟨_, ws', hsize, hrun⟩
        refine ⟨_, .words ws' hws hsize, ?_⟩
        simp only [hws, hrun, Memory.store_release]

/-! ### What the kernels have in common -/

/-- A buffer that is read. -/
theorem input_checks (inv : Invocation) (m : Memory) (output i : Nat) :
    (inv.input (m.release (inv.buffer output)) i).Checks out (inv.Readable m output i)
      (inv.contents m i) := by
  rw [input, Memory.words, Memory.words?_release, Readable, contents]
  by_cases heq : inv.buffer output = inv.buffer i
  · rw [if_pos heq]
    exact .ofExcept (fun h => absurd heq.symm h.1) fun _ => ⟨_, rfl⟩
  · rw [if_neg heq]
    cases m.words? (inv.buffer i) with
    | none => exact .ofExcept (fun h => absurd h.2 Bool.false_ne_true) fun _ => ⟨_, rfl⟩
    | some ws => exact .ofExcept (fun _ => rfl) fun h => absurd ⟨Ne.symm heq, rfl⟩ h

/-- Bounds that are read. -/
theorem read_checks (inv : Invocation) (m : Memory) (output first : Nat) :
    (BoundView.read inv (m.release (inv.buffer output)) first).Checks out
      (inv.Readable m output first ∧ inv.Readable m output (first + 1) ∧
        inv.Readable m output (first + 2) ∧ True) (inv.view m first) :=
  (input_checks inv m output first).bind <| (input_checks inv m output (first + 1)).bind <|
    (input_checks inv m output (first + 2)).bind (.pure _)

end Invocation

namespace Kernel

variable {inv : Invocation} {out : Words}

/-! ### Scans -/

theorem lowerOutput_works {first last : Nat} {qualifies : Nat → Body Bool} {U : Nat → Prop}
    (h : ∀ var out', (qualifies var).Works out' (U var)) :
    (lowerOutput first last qualifies).Works out (∀ var, first ≤ var → var < last → U var) := by
  refine (Body.Works.forM (U := U) fun var _ out' _ => ?_).congr ?_
  · refine ((h var out').bind (T := True) fun b out₂ _ => ?_).congr (and_iff_left trivial)
    cases b with
    | false => exact .pure ()
    | true => exact .write Array.size_modify
  · simp only [List.mem_range'_1, and_imp]
    exact forall_congr' fun var => forall_congr' fun hfirst => by
      rw [show var < first + (last - first) ↔ var < last by omega]

/-- An item of a scan, which looks further only at variables of one role. -/
theorem role_iff {flag? : Option UInt32} {r : UInt32} {S : Prop} (h : flag?.isSome = true) :
    (∃ flag, flag? = some flag ∧ (flag ≠ r → True) ∧ (¬ flag ≠ r → S)) ↔
      (flag? = some r → S) := by
  rcases Option.isSome_iff_exists.mp h with ⟨flag, hflag⟩
  constructor
  · rintro ⟨_, hflag', -, hS⟩ heq
    exact hS (not_not_intro (Option.some.inj (hflag'.symm.trans heq)))
  · intro hS
    exact ⟨flag, hflag, fun _ => trivial, fun heq =>
      hS (hflag.trans (congrArg some (Decidable.not_not.mp heq)))⟩

theorem checkBounds_settles (h : inv.entry = .checkBounds) (m : Memory) :
    inv.Settles m (checkBounds inv) (inv.Accepts m) (inv.Stays m) := by
  have hout : inv.entry.output = 5 := by rw [h]; rfl
  unfold checkBounds
  dsimp only
  -- The checks of the kernel in the order in which it makes them, then the work. What they amount
  -- to is compared with `Accepts` and `Stays` below.
  refine .congr (Invocation.withOutput_settles hout
    (.check (Invocation.read_checks inv m 5 0) fun _ =>
      .check (Invocation.input_checks inv m 5 3) fun _ =>
      .check (Invocation.input_checks inv m 5 4) fun _ =>
      .check (.need inv _ _ _) fun _ => .check (.need inv _ _ _) fun _ =>
      .check .output fun _ => .check (.need inv _ _ _) fun _ =>
      .work (lowerOutput_works fun var out' => .entry_bind fun flag =>
        .ite (fun _ => .pure _) fun _ => .entry_bind fun value => .entry_bind fun interval =>
          .pure _))) ?_ ?_
  · rw [Invocation.accepts_iff h (by decide)]
    simp only [show Entry.inputs .checkBounds = [0, 1, 2, 3, 4] from rfl, List.forall_mem_cons,
      List.not_mem_nil, false_implies, implies_true, Invocation.Fits, h, and_assoc, true_and,
      and_true]
    exact Iff.rfl
  -- Given the sizes, reading the flag and the value of a variable in range cannot fail; what is
  -- left are the bounds of the basic ones.
  · intro hacc
    have hfits := ((Invocation.accepts_iff h (by decide)).mp hacc).2.2
    simp only [Invocation.Fits, h] at hfits
    simp only [Invocation.Stays, h]
    refine forall_congr' fun var => forall_congr' fun _ => forall_congr' fun hvar => ?_
    refine (role_iff (Words.isSome_of_lt (by omega))).trans (imp_congr_right fun _ => ?_)
    rcases Words.exists_number (inv.contents m 3) var (by omega) with ⟨value, hvalue⟩
    simp [hvalue, Option.isSome_iff_exists]

theorem findSuitable_settles (h : inv.entry = .findSuitable) (m : Memory) :
    inv.Settles m (findSuitable inv) (inv.Accepts m) (inv.Stays m) := by
  have hout : inv.entry.output = 7 := by rw [h]; rfl
  unfold findSuitable
  dsimp only
  refine .congr (Invocation.withOutput_settles hout
    (.check (Invocation.input_checks inv m 7 0) fun _ =>
      .check (Invocation.read_checks inv m 7 1) fun _ =>
      .check (Invocation.input_checks inv m 7 4) fun _ =>
      .check (Invocation.input_checks inv m 7 5) fun _ =>
      .check (Invocation.input_checks inv m 7 6) fun _ =>
      .check (.need inv _ _ _) fun _ => .check (.need inv _ _ _) fun _ =>
      .check .output fun _ => .check (.need inv _ _ _) fun _ =>
      .work (.entry_bind fun row => .entry_bind fun value => .entry_bind fun interval =>
        lowerOutput_works fun var out' => .entry_bind fun flag =>
          .ite (fun _ => .pure _) fun _ => .entry_bind fun col => .entry_bind fun coeff =>
            .entry_bind fun value => .entry_bind fun interval => .pure _))) ?_ ?_
  · rw [Invocation.accepts_iff h (by decide)]
    simp only [show Entry.inputs .findSuitable = [0, 1, 2, 3, 4, 5, 6] from rfl,
      List.forall_mem_cons, List.not_mem_nil, false_implies, implies_true, Invocation.Fits, h,
      and_assoc, true_and, and_true]
    exact Iff.rfl
  · intro hacc
    have hfits := ((Invocation.accepts_iff h (by decide)).mp hacc).2.2
    simp only [Invocation.Fits, h] at hfits
    simp only [Invocation.Stays, h]
    -- The roles are long enough for every variable of the chunk, so only the cells and the bounds
    -- may be missing.
    have hflag : ∀ var, var < min (inv.nat 3 + inv.size.spanX) (inv.nat 0) →
        ((inv.contents m 5)[var]?).isSome = true := fun var hvar => Words.isSome_of_lt (by omega)
    -- From reads that succeeded to places that exist, and back. The place of the broken variable
    -- is read once, so both sides speak of the same row.
    constructor
    · rintro ⟨row, hrow, value, hvalue, interval, hinterval, hitems⟩
      refine ⟨⟨Words.lt_size hrow, Words.lt_size_of_number hvalue, by rw [hinterval]; rfl⟩, ?_⟩
      intro var hfirst hlast hrole
      rcases (role_iff (hflag var hlast)).mp (hitems var hfirst hlast) hrole with
        ⟨col, hcol, coeff, hcoeff, _, _, i, hi, -⟩
      exact ⟨⟨row, col, hrow, hcol, Words.lt_size_of_number hcoeff⟩, by rw [hi]; rfl⟩
    · rintro ⟨⟨hplace, hvalue, hinterval⟩, hitems⟩
      rcases Words.exists_number _ _ hvalue with ⟨value, hvalue⟩
      rcases Option.isSome_iff_exists.mp hinterval with ⟨interval, hinterval⟩
      refine ⟨_, Array.getElem?_eq_getElem hplace, value, hvalue, interval, hinterval, ?_⟩
      intro var hfirst hlast
      refine (role_iff (hflag var hlast)).mpr fun hrole => ?_
      rcases hitems var hfirst hlast hrole with ⟨⟨row, col, hrow, hcol, hcell⟩, hi⟩
      cases (Array.getElem?_eq_getElem hplace).symm.trans hrow
      rcases Words.exists_number _ _ hcell with ⟨coeff, hcoeff⟩
      rcases Words.exists_number (inv.contents m 4) var (by omega) with ⟨x, hx⟩
      rcases Option.isSome_iff_exists.mp hi with ⟨i, hi⟩
      exact ⟨col, hcol, coeff, hcoeff, x, hx, i, hi, trivial⟩

theorem findSuitableComplete_settles (h : inv.entry = .findSuitableComplete) (m : Memory) :
    inv.Settles m (findSuitableComplete inv) (inv.Accepts m) (inv.Stays m) := by
  have hout : inv.entry.output = 4 := by rw [h]; rfl
  unfold findSuitableComplete
  dsimp only
  refine .congr (Invocation.withOutput_settles hout
    (.check (Invocation.input_checks inv m 4 0) fun _ =>
      .check (Invocation.read_checks inv m 4 1) fun _ =>
      .check (Invocation.input_checks inv m 4 5) fun _ =>
      .check .output fun _ => .check (.need inv _ _ _) fun _ =>
      .work (.entry_bind fun row => .entry_bind fun col => .entry_bind fun coeff =>
        .output_bind (.entry_bind fun value => .entry_bind fun interval =>
          .bind (.write Array.size_modify) fun _ _ _ => .write Array.size_modify)))) ?_ ?_
  · rw [Invocation.accepts_iff h (by decide)]
    simp only [show Entry.inputs .findSuitableComplete = [0, 1, 2, 3, 5] from rfl,
      List.forall_mem_cons, List.not_mem_nil, false_implies, implies_true, Invocation.Fits, h,
      and_assoc, true_and, and_true]
    exact Iff.rfl
  · intro hacc
    have hfits := ((Invocation.accepts_iff h (by decide)).mp hacc).2.2
    simp only [Invocation.Fits, h] at hfits
    simp only [Invocation.Stays, h]
    -- One cell and one pair of bounds are read; both writes are to values that the size check has
    -- found to be there.
    constructor
    · rintro ⟨row, hrow, col, hcol, coeff, hcoeff, _, _, i, hi, -⟩
      exact ⟨⟨row, col, hrow, hcol, Words.lt_size_of_number hcoeff⟩, by rw [hi]; rfl⟩
    · rintro ⟨⟨row, col, hrow, hcol, hcell⟩, hi⟩
      rcases Words.exists_number _ _ hcell with ⟨coeff, hcoeff⟩
      rcases Words.exists_number (inv.contents m 4) (inv.nat 1) (by omega) with ⟨x, hx⟩
      rcases Option.isSome_iff_exists.mp hi with ⟨i, hi⟩
      exact ⟨row, hrow, col, hcol, coeff, hcoeff, x, hx, i, hi, trivial, trivial⟩

/-! ### Exchange -/

theorem size_eliminateCells (start cols col : Nat) (row : Words) (gamma alpha : Binary32)
    (out : Words) : (eliminateCells start cols col row gamma alpha out).size = out.size := by
  refine List.foldlRecOn (motive := fun out' : Words => out'.size = out.size) _ _ rfl ?_
  intro out' hsize c _
  split
  · exact hsize
  · exact Array.size_modify.trans hsize

theorem eliminateRow_works {row col numCols cols r : Nat} {solved : Words} {alpha : Binary32}
    (h : (r + 1) * numCols ≤ out.size) :
    (eliminateRow row col numCols cols solved alpha r).Works out (r ≠ row → col < numCols) := by
  refine (Body.Works.ite (fun _ => .pure _) fun _ => .ite (fun hcol => .output_bind
    (.entry_bind fun gamma => .write (size_eliminateCells _ _ _ _ _ _ _))) fun _ =>
      .outOfRange).congr ?_
  rw [Nat.succ_mul] at h
  constructor
  · exact fun hrow hne => Decidable.byContradiction fun hcol => (hrow.2 hne).2 hcol
  · refine fun hcol => ⟨fun _ => trivial, fun hne => ⟨fun hlt => ?_, fun hge => hge (hcol hne)⟩⟩
    rcases Words.exists_number out (r * numCols + col) (by omega) with ⟨x, hx⟩
    exact ⟨x, hx, trivial⟩

theorem divideCell_works {row col numCols r : Nat} {alpha : Binary32} :
    (divideCell row col numCols alpha r).Works out
      (r ≠ row → r * numCols + col < out.size) := by
  refine (Body.Works.ite (fun _ => .pure _) fun _ => .output_bind
    (.entry_bind fun old => .write Array.size_setIfInBounds)).congr ?_
  constructor
  · intro hrow hne
    rcases hrow.2 hne with ⟨x, hx, -⟩
    exact Words.lt_size_of_number hx
  · refine fun hcell => ⟨fun _ => trivial, fun hne => ?_⟩
    rcases Words.exists_number _ _ (hcell hne) with ⟨x, hx⟩
    exact ⟨x, hx, trivial⟩

theorem pivotUpdateInner_settles (h : inv.entry = .pivotUpdateInner) (m : Memory) :
    inv.Settles m (pivotUpdateInner inv) (inv.Accepts m) (inv.Stays m) := by
  have hout : inv.entry.output = 0 := by rw [h]; rfl
  unfold pivotUpdateInner
  dsimp only
  by_cases hcols : inv.nat 4 = 0
  · rw [if_pos hcols]
    refine ⟨fun hacc => absurd (.inl ⟨h, hcols⟩) hacc, fun _ hstays => ?_, fun _ _ => ?_⟩
    · simp only [Invocation.Stays, h] at hstays
      exact absurd (.inl hcols) hstays
    · exact ⟨m, .same, rfl⟩
  · rw [if_neg hcols]
    refine .congr (Invocation.withOutput_settles hout
      (.check .output fun _ => .check (.need inv _ _ _) fun hneed =>
        .work (.ite (fun _ => .outOfRange) fun _ => .forM fun r hr out' hsize =>
          eliminateRow_works ?_))) ?_ ?_
    -- The rows that change are among those of the size check.
    · have hr := List.mem_range.mp hr
      have hmul := Nat.mul_le_mul_right (inv.nat 4) (show r + 1 ≤ inv.nat 3 by omega)
      omega
    · rw [Invocation.Accepts, h]
      rw [or_iff_right fun hinner => hcols hinner.2, Invocation.finds_iff (by decide)]
      simp [Invocation.Fits, h, Entry.bufferCount, Entry.output]
    · intro _
      simp only [Invocation.Stays, h, hcols, false_or, List.mem_range]
      rw [imp_false, Nat.not_lt]
      exact and_congr_right fun hsolved => ⟨fun hrows => hrows hsolved, fun hrows _ => hrows⟩

theorem pivotUpdateRow_settles (h : inv.entry = .pivotUpdateRow) (m : Memory) :
    inv.Settles m (pivotUpdateRow inv) (inv.Accepts m) (inv.Stays m) := by
  have hout : inv.entry.output = 0 := by rw [h]; rfl
  unfold pivotUpdateRow
  dsimp only
  refine .congr (Invocation.withOutput_settles hout
    (.check .output fun _ => .check (.need inv _ _ _) fun _ => .work (.write ?_))) ?_ ?_
  -- The sweep writes in place, so it keeps the size of the buffer.
  · refine List.foldlRecOn (motive := fun out : Words => out.size = (inv.contents m 0).size)
      _ _ rfl ?_
    intro out' hsize c _
    split
    · exact hsize
    · exact Array.size_modify.trans hsize
  · rw [Invocation.accepts_iff h (by decide)]
    simp only [show Entry.inputs .pivotUpdateRow = [] from rfl, List.not_mem_nil, false_implies,
      implies_true, Invocation.Fits, h, true_and, and_true]
    exact Iff.rfl
  · simp only [Invocation.Stays, h, implies_true]

theorem pivotUpdateColumn_settles (h : inv.entry = .pivotUpdateColumn) (m : Memory) :
    inv.Settles m (pivotUpdateColumn inv) (inv.Accepts m) (inv.Stays m) := by
  have hout : inv.entry.output = 0 := by rw [h]; rfl
  unfold pivotUpdateColumn
  dsimp only
  refine .congr (Invocation.withOutput_settles hout
    (.check .output fun _ => .check (.need inv _ _ _) fun _ =>
      .work (.forM fun r _ out' hsize => hsize ▸ divideCell_works))) ?_ ?_
  · rw [Invocation.accepts_iff h (by decide)]
    simp only [show Entry.inputs .pivotUpdateColumn = [] from rfl, List.not_mem_nil, false_implies,
      implies_true, Invocation.Fits, h, true_and, and_true]
    exact Iff.rfl
  · simp only [Invocation.Stays, h, List.mem_range, implies_true]

/-! ### Reductions -/

section Workgroup

variable {first width count : Nat} {load : Nat → Body Binary32} {U : Nat → Prop}
  {shared : Array Binary32}

theorem fillShared_hands :
    (fillShared first count load shared).Hands fun filled => filled.size = shared.size := by
  refine Body.Hands.foldlM (J := fun filled : Array Binary32 => filled.size = shared.size)
    (fun b l hb => ?_) _ _ rfl
  exact .bind .trivial fun _ _ => .pure (Array.size_setIfInBounds.trans hb)

/-- To fill the shared array takes the items below the count. -/
theorem fillShared_works (h : ∀ i out', (load i).Works out' (U i)) :
    (fillShared first count load shared).Works out
      (∀ l < shared.size, first + l < count → U (first + l)) := by
  refine (Body.Works.foldlM (J := fun _ => True) (U := fun l => first + l < count → U (first + l))
    (fun _ _ _ => .trivial) (fun l _ items out' _ _ => ?_) _ trivial).congr
    (by simp only [List.mem_range])
  refine (Body.Works.bind (Body.Works.ite (fun _ => h _ out') fun _ => .pure _)
    fun _ _ _ => .pure _).congr ?_
  simp only [and_true, implies_true]

/-- The rounds stay in the array and come to an end. -/
theorem exists_treeReduce (hwidth : floorPow2 width = width) (hsize : shared.size = width) :
    ∃ sum, ∃ rest : Array Binary32, treeReduce shared = .ok (sum, rest) ∧ rest.size = width := by
  have hpow := two_pow_log2 hwidth
  have hcell : ∀ i < 2 ^ width.log2, shared[i]? = some ((shared[i]?).getD 0) := fun i hi => by
    rw [Array.getElem?_eq_getElem (by omega), Option.getD_some]
  rcases treeReduce_eq (hsize.trans hpow.symm) hcell with ⟨rest, hrun, hrest⟩
  exact ⟨_, rest, hrun, hrest.trans hpow⟩

/-- So a workgroup gets to its sum if it can take its items below the count. -/
theorem reduced_works {α : Type} {use : Binary32 × Array Binary32 → Body α}
    (h : ∀ i out', (load i).Works out' (U i)) (hwidth : floorPow2 width = width)
    (hsize : shared.size = width)
    (huse : ∀ r out', out'.size = out.size → (use r).Works out' True) :
    (fillShared first count load shared >>= fun filled =>
      Body.ofExcept (treeReduce filled) >>= use).Works out
        (∀ l < width, first + l < count → U (first + l)) := by
  rw [← hsize]
  refine ((fillShared_works h).next fillShared_hands fun filled out' hfilled hout => ?_).congr
    (and_iff_left trivial)
  rcases exists_treeReduce hwidth (hfilled.trans hsize) with ⟨sum, rest, hrun, -⟩
  rw [hrun]
  exact huse (sum, rest) out' hout

theorem writeGroup_works (h : ∀ i out', (load i).Works out' (U i))
    (hwidth : floorPow2 width = width) (hsize : shared.size = width) (g : Nat) :
    (writeGroup width count load shared g).Works out
      (∀ l < width, g * width + l < count → U (g * width + l)) :=
  reduced_works h hwidth hsize fun _ _ _ =>
    (Body.Works.bind (.write Array.size_setIfInBounds) fun _ _ _ => .pure _).congr
      (and_iff_left trivial)

theorem writeGroup_hands (hwidth : floorPow2 width = width) (hsize : shared.size = width)
    (g : Nat) :
    (writeGroup width count load shared g).Hands fun rest => rest.size = width := by
  refine fillShared_hands.bind fun filled hfilled => ?_
  rcases exists_treeReduce hwidth (hfilled.trans hsize) with ⟨sum, rest, hrun, hrest⟩
  rw [hrun]
  exact .bind (.pure hrest) fun _ hr => .bind .trivial fun _ _ => .pure hr

end Workgroup

/-- Both kernels that sum by groups. They refuse a workgroup that is not a power of two or
    an output with fewer places than groups, and stay inside their buffers if what they load
    does. -/
theorem partialSums_settles {count : Nat} {load : Nat → Body Binary32} {U : Nat → Prop}
    (h : ∀ i out', (load i).Works out' (U i)) :
    (partialSums inv count load).Settles out (inv.Halves ∧ inv.size.groups.x ≤ out.size)
      (∀ i < min inv.size.spanX count, U i) := by
  have hwidth : (Body.ofExcept (reductionWidth inv)).Checks out inv.Halves inv.size.group.x :=
    .ofExcept (fun h => if_pos h) fun h => ⟨_, if_neg h⟩
  refine .congr (.check hwidth fun hhalves => .check .output fun _ =>
    .check (.need inv _ _ _) fun _ => .work (.bind (.foldlM
      (J := fun shared => shared.size = inv.size.group.x)
      (fun _ g hsize => writeGroup_hands hhalves.2 hsize g)
      (fun g _ _ _ hsize _ => writeGroup_works h hhalves.2 hsize g) _ Array.size_replicate)
      fun _ _ _ => .pure ())) ?_ ?_
  · simp only [true_and, and_true]
  · rintro ⟨hhalves, -⟩
    simp only [List.mem_range, and_true]
    -- Work item `i` is item `i % w` of group `i / w`, for groups of `w` items, so the items of
    -- all groups are those below the span.
    constructor
    · intro hall i hi
      have hpos := Nat.pos_of_ne_zero hhalves.1
      have hg : i / inv.size.group.x < inv.size.groups.x :=
        Nat.div_lt_of_lt_mul (Nat.mul_comm _ _ ▸ (by rw [LaunchSize.spanX] at hi; omega))
      have hi' := hall _ hg _ (Nat.mod_lt i hpos)
      rw [Nat.div_add_mod' i] at hi'
      exact hi' (by omega)
    · intro hall g hg l hl hcount
      refine hall _ ?_
      have hmul := Nat.mul_le_mul_right inv.size.group.x (show g + 1 ≤ inv.size.groups.x from hg)
      rw [Nat.succ_mul] at hmul
      rw [LaunchSize.spanX]
      omega

theorem updateAssignment_settles (h : inv.entry = .updateAssignment) (m : Memory) :
    inv.Settles m (updateAssignment inv) (inv.Accepts m) (inv.Stays m) := by
  have hout : inv.entry.output = 3 := by rw [h]; rfl
  unfold updateAssignment
  dsimp only
  refine .congr (Invocation.withOutput_settles hout
    (.check (Invocation.input_checks inv m 3 0) fun _ =>
      .check (Invocation.input_checks inv m 3 1) fun _ =>
      .check (Invocation.input_checks inv m 3 2) fun _ =>
      .check (.need inv _ _ _) fun _ => .check (.need inv _ _ _) fun _ =>
      partialSums_settles fun c out' => .entry_bind fun var => .entry_bind fun value =>
        .entry_bind fun coeff => .pure _)) ?_ ?_
  · rw [Invocation.accepts_iff h (by decide)]
    simp only [show Entry.inputs .updateAssignment = [0, 1, 2] from rfl, List.forall_mem_cons,
      List.not_mem_nil, false_implies, implies_true, Invocation.Fits, h, and_assoc, and_true]
    exact Iff.rfl
  · intro hacc
    have hfits := ((Invocation.accepts_iff h (by decide)).mp hacc).2.2
    simp only [Invocation.Fits, h] at hfits
    simp only [Invocation.Stays, h]
    -- The size check is for the end of the row, from which the bound of one of its cells follows.
    rw [Nat.succ_mul] at hfits
    refine forall_congr' fun c => forall_congr' fun hc => ?_
    -- The variable that a column names is read from a buffer, so nothing but its own size keeps
    -- it inside the values.
    constructor
    · rintro ⟨var, hvar, value, hvalue, -⟩ var' hvar'
      cases hvar.symm.trans hvar'
      exact Words.lt_size_of_number hvalue
    · intro hvalues
      have hvar : (inv.contents m 2)[c]? = some _ := Array.getElem?_eq_getElem (by omega)
      rcases Words.exists_number _ _ (hvalues _ hvar) with ⟨value, hvalue⟩
      rcases Words.exists_number (inv.contents m 0) (inv.nat 1 * inv.nat 0 + c) (by omega) with
        ⟨coeff, hcoeff⟩
      exact ⟨_, hvar, value, hvalue, coeff, hcoeff, trivial⟩

theorem reducePartialSums_settles (h : inv.entry = .reducePartialSums) (m : Memory) :
    inv.Settles m (reducePartialSums inv) (inv.Accepts m) (inv.Stays m) := by
  have hout : inv.entry.output = 1 := by rw [h]; rfl
  unfold reducePartialSums
  dsimp only
  refine .congr (Invocation.withOutput_settles hout
    (.check (Invocation.input_checks inv m 1 0) fun _ => .check (.need inv _ _ _) fun _ =>
      partialSums_settles fun i out' => .entry _)) ?_ ?_
  · rw [Invocation.accepts_iff h (by decide)]
    simp only [show Entry.inputs .reducePartialSums = [0] from rfl, List.forall_mem_cons,
      List.not_mem_nil, false_implies, implies_true, Invocation.Fits, h, and_true]
    exact Iff.rfl
  · intro hacc
    have hfits := ((Invocation.accepts_iff h (by decide)).mp hacc).2.2
    simp only [Invocation.Fits, h] at hfits
    simp only [Invocation.Stays, h, iff_true]
    intro i hi
    rcases Words.exists_number (inv.contents m 0) i (by omega) with ⟨x, hx⟩
    rw [hx]
    rfl

theorem updateAssignmentComplete_settles (h : inv.entry = .updateAssignmentComplete) (m : Memory) :
    inv.Settles m (updateAssignmentComplete inv) (inv.Accepts m) (inv.Stays m) := by
  have hout : inv.entry.output = 1 := by rw [h]; rfl
  have haccepts : inv.Accepts m ↔ (m.words? (inv.buffer 1)).isSome = true ∧
      inv.Readable m 1 0 ∧ inv.Fits m := by
    rw [Invocation.accepts_iff h (by decide)]
    simp only [show Entry.inputs .updateAssignmentComplete = [0] from rfl, List.forall_mem_cons,
      List.not_mem_nil, false_implies, implies_true, and_true]
    exact Iff.rfl
  simp only [Invocation.Fits, h] at haccepts
  -- The width and the count are checked before a buffer is looked for.
  by_cases hhalves : inv.Halves
  · have hwidth : reductionWidth inv = .ok inv.size.group.x := if_pos hhalves
    by_cases hcount : inv.size.group.x < inv.nat 0
    · refine (Invocation.Settles.refused (e := .tooManyPartials inv.entry.name (inv.nat 0)
        inv.size.group.x) ?_).congr ?_ fun _ => Iff.rfl
      · simp only [updateAssignmentComplete, hwidth, if_pos hcount]
      · exact iff_of_false id fun hacc => Nat.not_le.mpr hcount (haccepts.mp hacc).2.2.2.1
    · unfold updateAssignmentComplete
      simp only [hwidth, if_neg hcount]
      refine .congr (Invocation.withOutput_settles hout
        (.check (Invocation.input_checks inv m 1 0) fun _ => .check (.need inv _ _ _) fun _ =>
          .check .output fun _ => .check (.need inv _ _ _) fun _ =>
          .work (reduced_works (fun i out' => .entry _) hhalves.2 Array.size_replicate fun _ _ _ =>
            .write Array.size_setIfInBounds))) ?_ ?_
      · simp only [haccepts, hhalves, Nat.not_lt.mp hcount, true_and, and_true]
      · intro hacc
        have hsums := (haccepts.mp hacc).2.2.2.2.1
        simp only [Invocation.Stays, h, iff_true]
        intro l _ hl
        rcases Words.exists_number (inv.contents m 0) (0 + l) (by omega) with ⟨x, hx⟩
        rw [hx]
        rfl
  · have hwidth : reductionWidth inv
        = .error (.error (.unevenWorkgroup inv.entry.name inv.size.group.x)) := if_neg hhalves
    refine (Invocation.Settles.refused (e := .unevenWorkgroup inv.entry.name inv.size.group.x)
      ?_).congr ?_ fun _ => Iff.rfl
    · simp only [updateAssignmentComplete, hwidth]
    · exact iff_of_false id fun hacc => hhalves (haccepts.mp hacc).2.2.1

end Kernel

/-- How each of the kernels ends. There is one statement for all of them, by a condition for
    what a kernel accepts and one for where it stays. -/
theorem Invocation.run_settles (inv : Invocation) (m : Memory) :
    inv.Settles m inv.run (inv.Accepts m) (inv.Stays m) := by
  unfold run
  cases h : inv.entry with
  | checkBounds => exact Kernel.checkBounds_settles h m
  | findSuitable => exact Kernel.findSuitable_settles h m
  | findSuitableComplete => exact Kernel.findSuitableComplete_settles h m
  | pivotUpdateInner => exact Kernel.pivotUpdateInner_settles h m
  | pivotUpdateRow => exact Kernel.pivotUpdateRow_settles h m
  | pivotUpdateColumn => exact Kernel.pivotUpdateColumn_settles h m
  | updateAssignment => exact Kernel.updateAssignment_settles h m
  | reducePartialSums => exact Kernel.reducePartialSums_settles h m
  | updateAssignmentComplete => exact Kernel.updateAssignmentComplete_settles h m

end BoundedSimplex
