import BoundedSimplex.Proofs.Body
import BoundedSimplex.Proofs.Requests
import BoundedSimplex.Engine.Parallel

/-!
# Buffers and Wires

What an engine on a device finds there.

An engine knows its buffers and kernels by number. What they hold is known to
the device alone, and between two launches it is all that counts: the words of
each buffer, and the arguments of each kernel that are bound. `Parallel.Sees`
says what they are, for a device that refuses nothing. From then on a buffer
is named by its purpose, a `Slot`, and no number is looked at any more. Every
request of the engine changes one slot or some wires, and leaves the others as
they were.

A kernel may be launched once all its arguments are bound. Most stay the same
during a search, and only few are bound before a launch, so the wires of a
kernel are told as a list, and only what is in the list has to be known.

## Main definitions

* `Slot`, `Parallel.slot`: The buffers by their purpose.
* `Contents`: The words of all buffers.
* `Wiring`: The arguments of all kernels.
* `Parallel.Sees`: What the engine finds on its device.

## Theorems

* `Parallel.Sees.get_gives`, `Parallel.Sees.write_gives`: The transfers.
* `Parallel.Sees.bind_gives`: Binding arguments.
* `Parallel.Sees.run_gives`: A launch.
-/

namespace BoundedSimplex

/-- The buffers of an engine on a device by their purpose. The partial sums
    have two, which take turns. -/
inductive Slot where
  | lower
  | upper
  | bounded
  | values
  | flags
  | tableau
  | colVar
  | rowVar
  | place
  | output
  | sums (second : Bool)
deriving DecidableEq

/-- The words of all buffers. -/
abbrev Contents := Slot → Words

/-- The words with those of one buffer replaced. -/
def Contents.set (c : Contents) (s : Slot) (ws : Words) : Contents :=
  fun t => if t = s then ws else c t

@[simp] theorem Contents.set_same (c : Contents) (s : Slot) (ws : Words) : c.set s ws s = ws :=
  if_pos rfl

theorem Contents.set_set (c : Contents) (s : Slot) (ws ws' : Words) :
    (c.set s ws).set s ws' = c.set s ws' := by
  funext t
  by_cases ht : t = s
  · rw [ht, set_same, set_same]
  · simp only [set, if_neg ht]

@[simp] theorem Contents.set_other {c : Contents} {s t : Slot} {ws : Words} (h : t ≠ s) :
    c.set s ws t = c t :=
  if_neg h

/-- No dimension is empty, and a workgroup has at most `limit` items. -/
structure LaunchSize.Fits (size : LaunchSize) (limit : Nat) : Prop where
  group : size.group.hasEmpty = false
  grid : size.grid.hasEmpty = false
  items : size.group.items ≤ limit

/-- Positive numbers that are machine words are no empty dimensions. -/
theorem Extent.hasEmpty_of {x y z : Nat} (hx : 0 < x ∧ x < UInt32.size)
    (hy : 0 < y ∧ y < UInt32.size) (hz : 0 < z ∧ z < UInt32.size) :
    (Extent.of x y z).hasEmpty = false :=
  hasEmpty_eq (by rw [x_of hx.2]; exact hx.1) (by rw [y_of hy.2]; exact hy.1)
    (by rw [z_of hz.2]; exact hz.1)

theorem LaunchSize.fits_linear {grid group limit : Nat} (hgrid : 0 < grid ∧ grid < UInt32.size)
    (hgroup : 0 < group ∧ group < UInt32.size) (hle : group ≤ limit) :
    (linear grid group).Fits limit where
  group := Extent.hasEmpty_of hgroup (by decide) (by decide)
  grid := Extent.hasEmpty_of hgrid (by decide) (by decide)
  items := by rwa [items_linear hgroup.2]

theorem LaunchSize.fits_planar {cols rows tile limit : Nat} (hcols : 0 < cols ∧ cols < UInt32.size)
    (hrows : 0 < rows ∧ rows < UInt32.size) (htile : 0 < tile ∧ tile < UInt32.size)
    (hle : tile * tile ≤ limit) : (planar cols rows tile).Fits limit where
  group := Extent.hasEmpty_of htile htile (by decide)
  grid := Extent.hasEmpty_of hcols hrows (by decide)
  items := by rwa [items_planar htile.2]

/-! ### Wires -/

/-- The arguments of all kernels, as far as they are bound. -/
abbrev Wiring := Entry → Nat → Option Arg

namespace Wiring

/-- One argument more. -/
def set (a : Wiring) (e : Entry) (i : Nat) (x : Arg) : Wiring :=
  fun e' i' => if e' = e ∧ i' = i then some x else a e' i'

/-- Some arguments more. -/
def setAll (a : Wiring) (e : Entry) (args : List (Nat × Arg)) : Wiring :=
  args.foldl (fun a q => a.set e q.1 q.2) a

/-- The arguments in a list are bound. -/
def Tells (a : Wiring) (e : Entry) (args : List (Nat × Arg)) : Prop :=
  ∀ q ∈ args, a e q.1 = some q.2

/-- A kernel with these arguments. -/
def kernel (a : Wiring) (e : Entry) : CompiledKernel := ⟨e, (Array.range e.arity).map (a e)⟩

variable {a : Wiring} {e e' : Entry} {args l : List (Nat × Arg)}

theorem set_same {i : Nat} {x : Arg} : a.set e i x e i = some x := if_pos ⟨rfl, rfl⟩

theorem set_other {i i' : Nat} {x : Arg} (h : e' = e → i' ≠ i) : a.set e i x e' i' = a e' i' :=
  if_neg fun hand => h hand.1 hand.2

theorem setAll_other {i : Nat} (h : e' = e → ∀ q ∈ args, i ≠ q.1) :
    a.setAll e args e' i = a e' i := by
  induction args generalizing a with
  | nil => rfl
  | cons q rest ih =>
      refine (ih fun he r hr => h he r (List.mem_cons_of_mem _ hr)).trans ?_
      exact set_other fun he => h he q List.mem_cons_self

/-- What is not bound again stays bound. -/
theorem Tells.setAll (ht : a.Tells e' l) (h : e' = e → ∀ q ∈ args, ∀ r ∈ l, r.1 ≠ q.1) :
    (a.setAll e args).Tells e' l := by
  intro r hr
  rw [setAll_other fun he q hq => h he q hq r hr]
  exact ht r hr

/-- Other kernels are not affected. -/
theorem Tells.elsewhere (ht : a.Tells e' l) (h : e' ≠ e) (args : List (Nat × Arg)) :
    (a.setAll e args).Tells e' l :=
  ht.setAll fun heq => absurd heq h

/-- What was bound is bound, if nothing was bound twice. -/
theorem tells_setAll (h : args.Pairwise fun q r => q.1 ≠ r.1) : (a.setAll e args).Tells e args := by
  induction args generalizing a with
  | nil => exact fun q hq => absurd hq List.not_mem_nil
  | cons q rest ih =>
      rcases List.pairwise_cons.mp h with ⟨hhead, htail⟩
      intro r hr
      rcases List.mem_cons.mp hr with rfl | hr
      · exact (setAll_other fun _ q hq => hhead q hq).trans set_same
      · exact ih htail r hr

theorem tells_nil : a.Tells e [] := fun _ hq => absurd hq List.not_mem_nil

theorem Tells.cons {i : Nat} {x : Arg} (h : a e i = some x) (h' : a.Tells e args) :
    a.Tells e ((i, x) :: args) := by
  intro q hq
  rcases List.mem_cons.mp hq with rfl | hq
  · exact h
  · exact h' q hq

theorem Tells.append (h : a.Tells e args) (h' : a.Tells e l) : a.Tells e (args ++ l) := by
  intro q hq
  rcases List.mem_append.mp hq with hq | hq
  · exact h q hq
  · exact h' q hq

theorem Tells.of_lookup (h : a.Tells e args) {i : Nat} {x : Arg} (hx : args.lookup i = some x) :
    a e i = some x := by
  induction args with
  | nil => cases hx
  | cons q rest ih =>
      rw [List.lookup_cons] at hx
      by_cases hiq : i = q.1
      · rw [hiq, beq_self_eq_true] at hx
        cases hx
        rw [hiq]
        exact h q List.mem_cons_self
      · rw [beq_false_of_ne hiq] at hx
        exact ih (fun r hr => h r (List.mem_cons_of_mem _ hr)) hx

theorem withArg_kernel {i : Nat} (x : Arg) :
    (a.kernel e).withArg i x = (a.set e i x).kernel e := by
  simp only [CompiledKernel.withArg, kernel, CompiledKernel.mk.injEq, true_and]
  refine Array.ext_getElem? fun j => ?_
  simp only [Array.getElem?_setIfInBounds, Array.size_map, Array.size_range, Array.getElem?_map,
    Array.getElem?_range]
  -- A place that the kernel does not have is not written on either side.
  by_cases hj : j < e.arity
  · rw [if_pos hj, Option.map_some, Option.map_some]
    by_cases hij : i = j
    · rw [if_pos hij, if_pos (hij ▸ hj), ← hij, set_same]
    · rw [if_neg hij, set_other fun _ h => hij h.symm]
  · rw [if_neg hj, Option.map_none, Option.map_none]
    by_cases hij : i = j
    · rw [if_pos hij, if_neg (hij ▸ hj)]
    · rw [if_neg hij]

end Wiring

/-- A list with an argument of the right kind for every place of a kernel, sorted into
    scalars and buffers. The order in which the arguments were set does not matter. -/
structure Entry.Sorts (e : Entry) (args : List (Nat × Arg)) (scalars : List UInt32)
    (buffers : List Nat) : Prop where
  scalars : (List.range e.scalarCount).map (fun i => (args.lookup i).bind (·.scalarBits?))
    = scalars.map some
  buffers : (List.range e.bufferCount).map
      (fun i => (args.lookup (e.scalarCount + i)).bind (·.buffer?)) = buffers.map some

/-- A kernel that was told all its arguments can be launched. -/
theorem Wiring.Tells.bound {a : Wiring} {e : Entry} {args : List (Nat × Arg)}
    {scalars : List UInt32} {buffers : List Nat} (h : a.Tells e args)
    (hsorts : e.Sorts args scalars buffers) : (a.kernel e).Bound scalars buffers := by
  have hkind : ∀ {X : Type} {f : Arg → Option X} {n start : Nat} {xs : List X},
      start + n ≤ e.arity → (List.range n).map (fun i => (args.lookup (start + i)).bind f)
        = xs.map some →
      (List.range n).map (fun i => (((a.kernel e).args[start + i]?).join).bind f)
        = xs.map some := by
    intro X f n start xs hle hmap
    rw [← hmap]
    refine List.map_congr_left fun i hi => ?_
    have hin := List.mem_range.mp hi
    have hlen := congrArg List.length hmap
    rw [List.length_map, List.length_map, List.length_range] at hlen
    have hget := CompiledKernel.getElem?_of_map_range hmap hin
    rw [List.getElem?_eq_getElem (by omega)] at hget
    -- That the list has an argument for this place follows from its kind.
    rcases Option.bind_eq_some_iff.mp hget with ⟨x, hx, -⟩
    have hlt : start + i < e.arity := by omega
    simp only [kernel, Array.getElem?_map, Array.getElem?_range, if_pos hlt, Option.map_some,
      Option.join_some, h.of_lookup hx, hx]
  refine ⟨?_, ?_, ?_⟩
  · simp only [kernel, Array.size_map, Array.size_range]
  · have hle : 0 + e.scalarCount ≤ e.arity := by
      rw [Entry.arity]
      omega
    have hscalars := hkind hle (by simpa only [Nat.zero_add] using hsorts.scalars)
    simp only [Nat.zero_add] at hscalars
    exact hscalars
  · exact hkind (Nat.le_of_eq rfl) hsorts.buffers

/-! ### What an engine finds on its device -/

namespace Parallel

/-- A buffer of the engine. -/
def slot (p : Parallel) : Slot → Buffer
  | .lower => p.bounds.lower
  | .upper => p.bounds.upper
  | .bounded => p.bounds.bounded
  | .values => p.bounds.values
  | .flags => p.bounds.flags
  | .tableau => p.tableau
  | .colVar => p.colVar
  | .rowVar => p.rowVar
  | .place => p.place
  | .output => p.output
  | .sums false => p.partials.1
  | .sums true => p.partials.2

/-- A launch with these scalars and the buffers of some slots. -/
def invocation (p : Parallel) (e : Entry) (size : LaunchSize) (scalars : List UInt32)
    (slots : List Slot) : Invocation :=
  ⟨e, scalars.toArray, (slots.map fun s => (p.slot s).id).toArray, size⟩

/-- The device refuses nothing, the kernels are bound to the arguments `a`, and the buffers
    hold the words `c`. Different slots have different buffers, and each holds as many words
    as the engine takes it to hold. With this the requests of the engine become functions on
    `a` and `c`, and memory need not be looked at any more. -/
structure Sees (p : Parallel) (d : Device) (a : Wiring) (c : Contents) : Prop where
  refuse : d.refuse = none
  kernel : ∀ e, (d.host.kernels[p.kernel e]?).join = some (a.kernel e)
  words : ∀ s, d.host.memory.words? (p.slot s).id = some (c s)
  inj : ∀ s t, (p.slot s).id = (p.slot t).id → s = t
  length : ∀ s, (p.slot s).length ≤ (c s).size
  limit : p.geometry.workgroup ≤ d.host.limits.maxWorkgroupSize

namespace Sees

variable {p : Parallel} {d : Device} {a : Wiring} {c : Contents}

theorem serves (h : p.Sees d a c) : d.Serves d.host := ⟨h.refuse, rfl⟩

/-- Different kernels have different numbers. -/
theorem kernel_inj (h : p.Sees d a c) {e e' : Entry} (heq : p.kernel e = p.kernel e') : e = e' := by
  have hk := h.kernel e
  rw [heq, h.kernel e', Option.some.injEq] at hk
  exact (congrArg CompiledKernel.entry hk).symm

/-- A device that was changed in one buffer. -/
theorem store (h : p.Sees d a c) {d' : Device} (s : Slot) {ws : Words}
    (hd' : d'.Serves { d.host with memory := d.host.memory.store (p.slot s).id ws })
    (hlen : (p.slot s).length ≤ ws.size) : p.Sees d' a (c.set s ws) where
  refuse := hd'.refuse
  kernel e := by rw [hd'.host, h.kernel e]
  words t := by
    rw [hd'.host, Memory.words?_store _ (h.words s)]
    -- No two slots share a buffer, so a write is seen in its own slot only.
    by_cases hts : t = s
    · rw [hts, if_pos rfl, Contents.set_same]
    · rw [if_neg fun heq => hts (h.inj t s heq.symm), Contents.set_other hts, h.words t]
  inj := h.inj
  length t := by
    by_cases hts : t = s
    · rw [hts, Contents.set_same]
      exact hlen
    · rw [Contents.set_other hts]
      exact h.length t
  limit := by
    rw [hd'.host]
    exact h.limit

/-- A device that was not changed. -/
theorem same (h : p.Sees d a c) {d' : Device} (hd' : d'.Serves d.host) : p.Sees d' a c where
  refuse := hd'.refuse
  kernel e := by rw [hd'.host, h.kernel e]
  words s := by rw [hd'.host, h.words s]
  inj := h.inj
  length := h.length
  limit := by
    rw [hd'.host]
    exact h.limit

/-! ### Transfers -/

theorem read_gives (h : p.Sees d a c) (s : Slot) {start count : Nat}
    (hend : start + count ≤ (p.slot s).length) :
    ((p.slot s).read start count).Gives d
      fun r d' => r = (c s).extract start (start + count) ∧ p.Sees d' a c := by
  refine (Exec.Yields.check (if_neg (Nat.not_lt.mpr hend))).gives ?_
  exact (h.serves.read_gives (h.words s) (Nat.le_trans hend (h.length s))).mono
    fun r d' hr => ⟨hr.1, h.same hr.2⟩

/-- One word is read as it is. -/
theorem get_gives (h : p.Sees d a c) (s : Slot) {i : Nat} (hi : i < (p.slot s).length)
    {w : UInt32} (hw : (c s)[i]? = some w) :
    ((p.slot s).get i).Gives d fun r d' => r = w ∧ p.Sees d' a c := by
  refine (h.read_gives s (show i + 1 ≤ (p.slot s).length from hi)).bind ?_
  rintro _ d' ⟨rfl, hd'⟩
  refine Exec.Gives.pure ⟨?_, hd'⟩
  have hlt : i < (c s).size := Nat.lt_of_lt_of_le hi (h.length s)
  rw [Array.getElem?_extract, if_pos (by omega), Nat.add_zero, hw, Option.getD_some]

theorem write_gives (h : p.Sees d a c) (s : Slot) {start : Nat} {data : Words}
    (hend : start + data.size ≤ (p.slot s).length) :
    ((p.slot s).write start data).Gives d
      fun _ d' => p.Sees d' a (c.set s ((c s).overlay start data)) := by
  refine (Exec.Yields.check (if_neg (Nat.not_lt.mpr hend))).gives ?_
  have hsize := Nat.le_trans hend (h.length s)
  refine (h.serves.write_gives (h.words s) hsize).mono fun _ d' hd' => h.store s hd' ?_
  rw [Words.size_overlay hsize]
  exact h.length s

/-- One word is replaced. -/
theorem set_gives (h : p.Sees d a c) (s : Slot) {i : Nat} (hi : i < (p.slot s).length)
    (x : UInt32) :
    ((p.slot s).set i x).Gives d fun _ d' => p.Sees d' a (c.set s ((c s).setIfInBounds i x)) := by
  have hroom : i + (#[x] : Words).size ≤ (p.slot s).length := hi
  have hwrite := h.write_gives s hroom
  rw [Words.overlay_singleton (Nat.lt_of_lt_of_le hi (h.length s))] at hwrite
  exact hwrite

/-! ### Binding and launching -/

theorem setArg_gives (h : p.Sees d a c) {e : Entry} {i : Nat} (hi : i < e.arity) (x : Arg) :
    (Device.setArg (p.kernel e) i x).Gives d fun _ d' => p.Sees d' (a.set e i x) c := by
  refine (h.serves.setArg_gives (h.kernel e) (i := i) ?_ x).mono fun _ d' hd' => ?_
  · simp only [Wiring.kernel, Array.size_map, Array.size_range]
    exact hi
  rw [Wiring.withArg_kernel] at hd'
  refine ⟨hd'.refuse, fun e' => ?_, fun s => ?_, h.inj, h.length, ?_⟩
  · rcases Array.getElem?_eq_some_iff.mp (Option.join_eq_some_iff.mp (h.kernel e)) with ⟨hlt, -⟩
    rw [hd'.host]
    simp only [HostDevice.withKernel, Array.getElem?_setIfInBounds]
    -- The kernels of the engine are different ones, so binding one leaves the wiring of the
    -- others.
    by_cases he : e' = e
    · rw [he, if_pos rfl, if_pos hlt, Option.join_some]
    · rw [if_neg fun heq => he (h.kernel_inj heq).symm, h.kernel e']
      simp only [Wiring.kernel, Option.some.injEq, CompiledKernel.mk.injEq, true_and]
      refine Array.map_congr_left fun i' _ => ?_
      exact (Wiring.set_other fun hee => absurd hee he).symm
  · rw [hd'.host]
    exact h.words s
  · rw [hd'.host]
    exact h.limit

/-- Several arguments are bound. Binding one of them leaves all others and the memory alone. -/
theorem bind_gives {e : Entry} (args : List (Nat × Arg)) (hargs : ∀ q ∈ args, q.1 < e.arity)
    (h : p.Sees d a c) :
    (p.bind e args).Gives d fun _ d' => p.Sees d' (a.setAll e args) c := by
  induction args generalizing d a with
  | nil => exact Exec.Gives.pure h
  | cons q rest ih =>
      exact (h.setArg_gives (hargs q List.mem_cons_self) q.2).bind fun _ d₁ hd₁ =>
        ih (fun r hr => hargs r (List.mem_cons_of_mem _ hr)) hd₁

/-- A kernel runs once all its arguments are bound. What is left to show of a launch is what
    the body does to the words, with no device in sight. -/
theorem run_gives (h : p.Sees d a c) {e : Entry} {args : List (Nat × Arg)} (ht : a.Tells e args)
    {scalars : List UInt32} {slots : List Slot}
    (hsorts : e.Sorts args scalars (slots.map fun s => (p.slot s).id)) {size : LaunchSize}
    (hsize : size.Fits p.geometry.workgroup) {s : Slot} {ws : Words}
    (hlen : (p.slot s).length ≤ ws.size)
    (hrun : (p.invocation e size scalars slots).run d.host.memory
      = (.ok (), d.host.memory.store (p.slot s).id ws)) :
    (p.run e size).Gives d fun _ d' => p.Sees d' a (c.set s ws) := by
  refine Exec.Yields.emit.gives ?_
  have hvalid : size.validate (a.kernel e).entry.name d.host.limits.maxWorkgroupSize = .ok () :=
    LaunchSize.validate_eq_ok_iff.mpr ⟨hsize.group, hsize.grid, Nat.le_trans hsize.items h.limit⟩
  exact (h.serves.launch_gives (h.kernel e) (ht.bound hsorts) hvalid hrun).mono
    fun _ d' hd' => h.store s hd' hlen

/-- What a launch finds in the buffers of some slots. -/
theorem finds (h : p.Sees d a c) (e : Entry) (size : LaunchSize) (scalars : List UInt32)
    (slots : List Slot) (hnd : slots.Nodup) {output : Nat} (hout : output < slots.length) :
    (p.invocation e size scalars slots).Finds d.host.memory slots.length output
      fun i => c (slots.getD i .output) := by
  have hbuffer : ∀ i (hi : i < slots.length),
      (p.invocation e size scalars slots).buffer i = (p.slot slots[i]).id := by
    intro i hi
    simp only [invocation, Invocation.buffer, List.getElem?_toArray, List.getElem?_map,
      List.getElem?_eq_getElem hi, Option.map_some, Option.getD_some]
  refine ⟨fun i hi => ?_, fun i hi hne heq => hne ?_, hout⟩
  · rw [hbuffer i hi, h.words, List.getD_eq_getElem?_getD, List.getElem?_eq_getElem hi,
      Option.getD_some]
  · rw [hbuffer i hi, hbuffer output hout] at heq
    exact (List.getElem_inj hnd).mp (h.inj _ _ heq)

end Sees

end Parallel

end BoundedSimplex
