import BoundedSimplex.Proofs.Editing
import BoundedSimplex.Proofs.Widths
import Mathlib.Data.List.Nodup

/-!
# Solvers on a Device

A solver that was made on a device and built there describes its problem.

Making an engine compiles its kernels and hands out twelve buffers, one after
the other. What is known on the way is that all of them are still there, that
they are different, and what they hold: `Device.Keeps`, with the newest buffer
first. A new buffer has the number after the last one, which no other has. So
once all are made the device is what the engine takes it to be,
`Parallel.Sees`, and it holds the variables of a system without constraints.

No engine is made if a chunk does not fit a machine word. A build that does not check
its arithmetic would make one all the same, with chunks of the remaining size, and
what such an engine finds is not told here. So whoever shows that a solver is made
has to know that the chunk fits, and whoever is given one learns it from there.

## Main definitions

* `Device.Keeps`: Buffers that were made so far.
* `Contents.initial`: What the buffers hold at first.

## Theorems

* `Parallel.create_gives`: The engine that is made.
* `Parallel.builds`: The engine does what an engine has to do.
* `Parallel.ready_of_build`, `Parallel.ending_of_build`: What follows for
  solvers that were made and built on a device.
-/

namespace BoundedSimplex

/-! ### New buffers -/

/-- The words of a new buffer for so many elements. -/
def zeros (n : Nat) : Words := Array.replicate ((max (n * 4) 4 + 3) / 4) 0

theorem le_size_zeros (n : Nat) : n ≤ (zeros n).size := by
  rw [zeros, Array.size_replicate]
  omega

theorem getElem?_zeros {n i : Nat} (hi : i < n) : (zeros n)[i]? = some 0 := by
  have hlt : i < (max (n * 4) 4 + 3) / 4 := by omega
  rw [zeros, Array.getElem?_replicate, if_pos hlt]

theorem number?_zeros {n i : Nat} (hi : i < n) : (zeros n).number? i = some 0 := by
  rw [Words.number?, getElem?_zeros hi]
  rfl

/-- Words that replace all there are. -/
theorem Words.overlay_all {ws data : Words} (h : data.size = ws.size) :
    ws.overlay 0 data = data := by
  refine Array.ext_getElem? fun i => ?_
  rw [getElem?_overlay (by omega), Nat.sub_zero]
  by_cases hi : i < data.size
  · rw [if_pos (by omega)]
  · rw [if_neg (by omega), Array.getElem?_eq_none (by omega), Array.getElem?_eq_none (by omega)]

theorem Memory.lt_nextId {m : Memory} {id : Nat} {ws : Words} (h : m.words? id = some ws) :
    id < m.nextId := by
  by_cases hlt : id < m.nextId
  · exact hlt
  · rw [words?, Array.getElem?_eq_none (Nat.le_of_not_lt hlt)] at h
    cases h

namespace Device

/-- A gateway that refuses nothing, with these kernels and limits behind it and
    these buffers, all of them different. -/
structure Keeps (d : Device) (kernels : Array (Option CompiledKernel)) (limits : Limits)
    (l : List (Buffer × Words)) : Prop where
  refuse : d.refuse = none
  kernels : d.host.kernels = kernels
  limits : d.host.limits = limits
  words : ∀ q ∈ l, d.host.memory.words? q.1.id = some q.2
  distinct : l.Pairwise fun q r => q.1.id ≠ r.1.id

namespace Keeps

variable {d : Device} {kernels : Array (Option CompiledKernel)} {limits : Limits}
  {l : List (Buffer × Words)}

/-- A buffer that is handed out is different from all others. -/
theorem allocate_gives (h : d.Keeps kernels limits l) (bytes length : Nat) :
    (allocate bytes).Gives d fun id d' =>
      d'.Keeps kernels limits ((⟨id, length⟩, Array.replicate ((bytes + 3) / 4) 0) :: l) := by
  have hserves : d.Serves d.host := ⟨h.refuse, rfl⟩
  refine (hserves.allocate_gives bytes).mono ?_
  rintro _ d' ⟨rfl, hd'⟩
  refine ⟨hd'.refuse, by rw [hd'.host]; exact h.kernels, by rw [hd'.host]; exact h.limits, ?_, ?_⟩
  · intro q hq
    rw [hd'.host, Memory.words?_allocate]
    rcases List.mem_cons.mp hq with rfl | hq
    · rw [if_pos rfl]
    -- The numbers of the old buffers are below the next one, so none is reused.
    · have hlt := Memory.lt_nextId (h.words q hq)
      rw [if_neg (Nat.ne_of_lt hlt)]
      exact h.words q hq
  · refine List.pairwise_cons.mpr ⟨fun q hq => ?_, h.distinct⟩
    exact Nat.ne_of_gt (Memory.lt_nextId (h.words q hq))

theorem zeroed_gives (h : d.Keeps kernels limits l) (n : Nat) :
    (Buffer.zeroed n).Gives d fun b d' =>
      b.length = n ∧ d'.Keeps kernels limits ((b, zeros n) :: l) := by
  refine (h.allocate_gives _ n).bind fun id d' hd' => ?_
  exact Exec.Gives.pure ⟨rfl, hd'⟩

/-- A buffer is handed out and then filled. -/
theorem ofWords_gives (h : d.Keeps kernels limits l) {ws : Words} (hne : ws.size ≠ 0) :
    (Buffer.ofWords ws).Gives d fun b d' =>
      b.length = ws.size ∧ d'.Keeps kernels limits ((b, ws) :: l) := by
  have hempty : ¬ ws.isEmpty = true := by
    rw [Array.isEmpty_iff_size_eq_zero]
    exact hne
  have hsize : ws.size = (4 * ws.size + 3) / 4 := by omega
  unfold Buffer.ofWords
  rw [if_neg hempty]
  refine (h.allocate_gives _ ws.size).bind fun id d₁ h₁ => ?_
  have hserves : d₁.Serves d₁.host := ⟨h₁.refuse, rfl⟩
  have hnew := h₁.words _ List.mem_cons_self
  -- Four bytes for each word, and no rounding.
  rw [← hsize] at hnew
  have hroom : 0 + ws.size ≤ (Array.replicate ws.size (0 : UInt32)).size := by
    rw [Array.size_replicate, Nat.zero_add]
  refine (hserves.write_gives hnew hroom).bind fun _ d₂ h₂ => ?_
  rw [Words.overlay_all Array.size_replicate.symm] at h₂
  rcases List.pairwise_cons.mp h₁.distinct with ⟨hhead, htail⟩
  refine Exec.Gives.pure ⟨rfl, h₂.refuse, ?_, ?_, fun q hq => ?_,
    List.pairwise_cons.mpr ⟨hhead, htail⟩⟩
  · rw [h₂.host]
    exact h₁.kernels
  · rw [h₂.host]
    exact h₁.limits
  · rw [h₂.host, Memory.words?_store _ hnew]
    rcases List.mem_cons.mp hq with rfl | hq
    · rw [if_pos rfl]
    · rw [if_neg (hhead q hq)]
      exact h₁.words q (List.mem_cons_of_mem _ hq)

end Keeps

end Device

/-! ### The engine that is made -/

namespace Bounds.Resident

variable {numBasic numNonbasic : Nat}

theorem size_initialFlags : (initialFlags numBasic numNonbasic).size = numBasic + numNonbasic := by
  rw [initialFlags, Array.size_map, Array.size_range]

theorem getElem?_initialFlags {v : Nat} (hv : v < numBasic + numNonbasic) :
    (initialFlags numBasic numNonbasic)[v]? = some (Role.initial numNonbasic v).flag := by
  rw [initialFlags, Array.getElem?_map, Array.getElem?_range, if_pos hv, Option.map_some]

end Bounds.Resident

/-- What the buffers hold at first: the flags of the variables, a mask that gives each of
    them a lower bound, the tables of the initial basis, and zeros in all others. So every
    variable is at least zero to begin with. -/
def Contents.initial (maxRows numCols groups : Nat) : Contents
  | .bounded => Array.replicate (maxRows + numCols) hasLower
  | .flags => Bounds.Resident.initialFlags maxRows numCols
  | .tableau => zeros (maxRows * numCols)
  | .colVar => Parallel.tableWords (Basis.initial maxRows numCols).colVar
  | .rowVar => Parallel.tableWords (Basis.initial maxRows numCols).rowVar
  | .place => Parallel.tableWords (Basis.initial maxRows numCols).place
  | .output => zeros 1
  | .sums _ => zeros groups
  | _ => zeros (maxRows + numCols)

/-- The buffers in the order in which they are made, the newest first. -/
def Slot.all : List Slot :=
  [.sums true, .sums false, .output, .place, .rowVar, .colVar, .tableau, .flags, .values, .bounded,
    .upper, .lower]

/-- No argument is bound. -/
def Wiring.unbound : Wiring := fun _ _ => none

namespace Parallel

variable {d : Device} {kernels : Array (Option CompiledKernel)} {limits : Limits}
  {l : List (Buffer × Words)}

/-- Every kernel that is compiled gets a number of its own. -/
theorem compileAll_gives {source : KernelSource} (hsource : source.family = .host)
    (es : List Entry) : ∀ {d : Device} {h : HostDevice}, d.Serves h →
      (compileAll source es).Gives d fun ids d' => ∃ ks : Array (Option CompiledKernel),
        d'.Serves { h with kernels := ks } ∧
        (∀ (i : Nat) (k : Option CompiledKernel), h.kernels[i]? = some k → ks[i]? = some k) ∧
        ∀ e ∈ es, ∃ id, ids.lookup e = some id ∧ ks[id]? = some (some (.fresh e)) := by
  induction es with
  | nil =>
      exact fun hd => Exec.Gives.pure ⟨_, hd, fun _ _ hk => hk,
        fun e he => absurd he List.not_mem_nil⟩
  | cons e rest ih =>
      intro d h hd
      refine (hd.compile_gives hsource e).bind ?_
      rintro _ d₁ ⟨rfl, h₁⟩
      refine (Exec.Gives.guarded (ih h₁)).bind ?_
      rintro ids d₂ ⟨ks, h₂, hkept, htold⟩
      -- A kernel is pushed to the end, where the later ones leave it.
      refine Exec.Gives.pure ⟨ks, h₂, fun i k hk => ?_, fun e' he' => ?_⟩
      · rcases Array.getElem?_eq_some_iff.mp hk with ⟨hlt, -⟩
        refine hkept i k ?_
        rw [Array.getElem?_push, if_neg (Nat.ne_of_lt hlt), hk]
      · rw [List.lookup_cons]
        by_cases hee : e' = e
        · rw [hee, beq_self_eq_true]
          refine ⟨_, rfl, hkept _ _ ?_⟩
          rw [Array.getElem?_push, if_pos rfl]
        · rw [beq_false_of_ne hee]
          exact htold e' ((List.mem_cons.mp he').resolve_left hee)

/-- The buffers of an engine, all different, are what the engine takes them to
    be. -/
theorem sees_of_keeps {p : Parallel} {c : Contents}
    (h : d.Keeps kernels limits (Slot.all.map fun s => (p.slot s, c s)))
    (hkernel : ∀ e, (kernels[p.kernel e]?).join = some (.fresh e))
    (hlength : ∀ s, (p.slot s).length ≤ (c s).size)
    (hlimit : p.geometry.workgroup ≤ limits.maxWorkgroupSize) :
    p.Sees d .unbound c := by
  -- Every slot is on the list of the slots, so what is known of the list is known of each.
  have hall : ∀ s, s ∈ Slot.all := by
    intro s
    cases s
    case sums second => cases second <;> decide
    all_goals decide
  refine ⟨h.refuse, fun e => ?_, fun s => ?_, fun s t heq => ?_, hlength, ?_⟩
  -- A kernel that was compiled and not used has no binding, which is what the engine takes it to
  -- have.
  · rw [h.kernels, hkernel]
    simp only [CompiledKernel.fresh, Wiring.kernel, Option.some.injEq, CompiledKernel.mk.injEq,
      true_and]
    refine Array.ext_getElem? fun i => ?_
    simp only [Array.getElem?_replicate, Array.getElem?_map, Array.getElem?_range]
    by_cases hi : i < e.arity
    · rw [if_pos hi, if_pos hi, Option.map_some, Wiring.unbound]
    · rw [if_neg hi, if_neg hi, Option.map_none]
  · exact h.words _ (List.mem_map_of_mem (hall s))
  -- The buffers are different on the list, so two slots with one buffer stand at one place of it.
  · have hdistinct := List.pairwise_map.mp h.distinct
    have hnodup : (Slot.all.map fun s => (p.slot s).id).Nodup := List.pairwise_map.mpr hdistinct
    exact List.inj_on_of_nodup_map hnodup (hall s) (hall t) heq
  · rw [h.limits]
    exact hlimit

theorem allocate_gives {maxRows numCols : Nat} (hpos : maxRows + numCols ≠ 0)
    (h : d.Keeps kernels limits l) :
    (Bounds.Resident.allocate maxRows numCols).Gives d fun r d' => r.numVars = maxRows + numCols ∧
      r.lower.length = maxRows + numCols ∧ r.upper.length = maxRows + numCols ∧
      r.bounded.length = maxRows + numCols ∧ r.values.length = maxRows + numCols ∧
      r.flags.length = maxRows + numCols ∧
      d'.Keeps kernels limits ((r.flags, Bounds.Resident.initialFlags maxRows numCols) ::
        (r.values, zeros (maxRows + numCols)) ::
        (r.bounded, Array.replicate (maxRows + numCols) hasLower) ::
        (r.upper, zeros (maxRows + numCols)) :: (r.lower, zeros (maxRows + numCols)) :: l) := by
  have hmasks : (Array.replicate (maxRows + numCols) hasLower).size ≠ 0 := by
    rw [Array.size_replicate]
    exact hpos
  have hflags : (Bounds.Resident.initialFlags maxRows numCols).size = maxRows + numCols :=
    Bounds.Resident.size_initialFlags
  -- The buffers are made one after the other, each behind those that are there already; the
  -- guards only matter if a later one fails.
  refine (h.zeroed_gives _).bind ?_
  rintro lower d₁ ⟨hlower, h₁⟩
  refine Exec.Gives.guarded ((h₁.zeroed_gives _).bind ?_)
  rintro upper d₂ ⟨hupper, h₂⟩
  refine Exec.Gives.guarded ((h₂.ofWords_gives hmasks).bind ?_)
  rintro bounded d₃ ⟨hbounded, h₃⟩
  refine Exec.Gives.guarded ((h₃.zeroed_gives _).bind ?_)
  rintro values d₄ ⟨hvalues, h₄⟩
  refine Exec.Gives.guarded ((h₄.ofWords_gives (by rw [hflags]; exact hpos)).bind ?_)
  rintro flags d₅ ⟨hlength, h₅⟩
  rw [Array.size_replicate] at hbounded
  rw [hflags] at hlength
  exact Exec.Gives.pure ⟨rfl, hlower, hupper, hbounded, hvalues, hlength, h₅⟩

/-- The buffers hold the variables of a system without constraints. -/
theorem variables_initial (maxRows numCols groups : Nat) (tolerance : Binary32) :
    (Contents.initial maxRows numCols groups).Variables
      ((Problem.blank maxRows numCols).board tolerance) := by
  have hnum : ((Problem.blank maxRows numCols).board tolerance).numVars = maxRows + numCols :=
    Nat.add_comm _ _
  rw [show (Problem.blank maxRows numCols).board tolerance = _ from rfl]
  refine ⟨⟨fun v hv => ?_, ?_, ?_⟩, fun v hv => ?_, fun v hv => ?_⟩
  · rw [hnum] at hv
    -- A new variable is at least zero and has no upper bound: its mask has the lower bit alone,
    -- and the lower word is the zero it was filled with.
    have hmask : (Contents.initial maxRows numCols groups .bounded)[v]? = some hasLower := by
      show (Array.replicate (maxRows + numCols) hasLower)[v]? = _
      rw [Array.getElem?_replicate, if_pos hv]
    have hlower : (Contents.initial maxRows numCols groups .lower).number? v = some 0 :=
      number?_zeros hv
    -- Which bits the mask has is a fact about two constants.
    have hset : ¬ hasLower &&& hasLower = 0 := by decide
    have hclear : hasLower &&& hasUpper = 0 := by decide
    simp only [BoundView.interval?, BoundView.side?, hmask, hlower, Option.bind_eq_bind,
      Option.bind_some, Option.map_some, if_neg hset, if_pos hclear]
    rfl
  · rw [hnum]
    exact le_size_zeros _
  · rw [hnum]
    exact le_size_zeros _
  · rw [hnum] at hv
    exact number?_zeros hv
  · rw [hnum] at hv
    exact Bounds.Resident.getElem?_initialFlags hv

/-- There are as many words in every buffer as it was made for. -/
theorem elements_le_initial {maxRows numCols groups : Nat} (hsize : maxRows + numCols < UInt32.size)
    (s : Slot) :
    s.elements maxRows numCols groups ≤ (Contents.initial maxRows numCols groups s).size := by
  have hbasis : Basis.initial maxRows numCols = .ofDimensions maxRows numCols :=
    Basis.initial_eq_ofDimensions (by omega) (by omega)
  have hmatch := Basis.matches_ofDimensions maxRows numCols
  have htable : ∀ table : Array Nat, (tableWords table).size = table.size :=
    fun _ => Array.size_map
  cases s <;> simp only [Slot.elements, Contents.initial, hbasis, htable, hmatch.size_colVar,
    hmatch.size_rowVar, hmatch.size_place, Array.size_replicate, Bounds.Resident.size_initialFlags,
    Nat.le_refl, le_size_zeros, Nat.add_comm numCols]

/-- An engine whose buffers were just made is ready for a system without
    constraints. -/
theorem fits_of_keeps {p : Parallel} {maxRows numCols : Nat}
    (h : d.Keeps kernels limits (Slot.all.map fun s =>
      (p.slot s, Contents.initial maxRows numCols (ceilDiv numCols p.geometry.workgroup) s)))
    (hkernel : ∀ e, (kernels[p.kernel e]?).join = some (.fresh e))
    (hlength : ∀ s, (p.slot s).length
      = s.elements maxRows numCols (ceilDiv numCols p.geometry.workgroup))
    {limit : Nat} (hsound : p.geometry.Sound limit) (hvars : p.numVars = maxRows + numCols)
    (hcols : p.numCols = numCols) (hbounds : p.bounds.numVars = maxRows + numCols)
    (hsize : maxRows + numCols < UInt32.size) (hpos : numCols ≠ 0) :
    p.Fits p.geometry.workgroup ((Problem.blank maxRows numCols).board p.tolerance) ∧
      (p.geometry.workgroup ≤ limits.maxWorkgroupSize → ∃ c, p.Sees d .unbound c ∧
        c.Variables ((Problem.blank maxRows numCols).board p.tolerance)) := by
  have hnum : ((Problem.blank maxRows numCols).board p.tolerance).numVars = maxRows + numCols :=
    Nat.add_comm _ _
  -- The sizes are those that were asked for, and the geometry is sound; only where the names of
  -- the board and the engine differ is there something to rewrite.
  refine ⟨⟨?_, hcols, rfl, ?_, ?_, Nat.pos_of_ne_zero hpos, hlength, rfl, hsound.pos, hsound.pow,
    hsound.tile, hsound.chunk, hsound.fits⟩,
    fun hwide => ⟨_, sees_of_keeps h hkernel (fun s => ?_) hwide,
    variables_initial _ _ _ _⟩⟩
  · rw [hnum, hvars]
  · rw [hnum, hbounds]
  · rw [hnum]
    exact hsize
  · rw [hlength]
    exact elements_le_initial hsize s

/-- An engine that was just made through a gateway which reported `info`, to a device
    with these limits. It knows its device if that runs workgroups as wide as it was
    told. -/
structure Created (info : DeviceInfo) (config : Config Binary32) (maxRows numCols : Nat)
    (limits : Limits) (p : Parallel) (d : Device) : Prop where
  geometry : p.geometry = .ofDevice info config.maxWorkgroupSize
  prepared : p.prepared = false
  fits : p.Fits p.geometry.workgroup ((Problem.blank maxRows numCols).board config.tolerance)
  refuse : d.refuse = none
  host : d.host.limits = limits
  sees : p.geometry.workgroup ≤ limits.maxWorkgroupSize → ∃ c, p.Sees d .unbound c ∧
    c.Variables ((Problem.blank maxRows numCols).board config.tolerance)

/-- The engine that is made, whatever the gateway reports of a device that compiles
    kernels for the process, as long as a chunk fits a word. -/
theorem create_leaves {config : Config Binary32} {maxRows numCols : Nat} {h : HostDevice}
    (hd : d.Serves h) (hfamily : d.info.family = .host) (hrows : maxRows ≠ 0) (hcols : numCols ≠ 0)
    (hsize : maxRows + numCols < UInt32.size) (hcap : config.maxWorkgroupSize ≠ some 0)
    (hlimit : d.info.maxWorkgroupSize ≠ 0)
    (hchunk : (Geometry.ofDevice d.info config.maxWorkgroupSize).chunk < UInt32.size) :
    (create config maxRows numCols).Gives d fun p d' =>
      Created d.info config maxRows numCols h.limits p d' := by
  have hpos : maxRows + numCols ≠ 0 := by omega
  have hbasis : Basis.initial maxRows numCols = .ofDimensions maxRows numCols :=
    Basis.initial_eq_ofDimensions (by omega) (by omega)
  have hmatch := Basis.matches_ofDimensions maxRows numCols
  have hcolVar : (tableWords (Basis.initial maxRows numCols).colVar).size = numCols := by
    rw [hbasis, tableWords, Array.size_map, hmatch.size_colVar]
  have hrowVar : (tableWords (Basis.initial maxRows numCols).rowVar).size = maxRows := by
    rw [hbasis, tableWords, Array.size_map, hmatch.size_rowVar]
  have hplace : (tableWords (Basis.initial maxRows numCols).place).size = maxRows + numCols := by
    rw [hbasis, tableWords, Array.size_map, hmatch.size_place, Nat.add_comm]
  unfold create
  refine Exec.Yields.view.gives ?_
  rw [if_neg hlimit]
  refine (Exec.Yields.word hchunk).gives ?_
  refine (compileAll_gives hfamily Entry.all hd).bind ?_
  rintro ids d₂ ⟨ks, h₂, -, htold⟩
  have hkeeps : d₂.Keeps ks h.limits [] :=
    ⟨h₂.refuse, by rw [h₂.host], by rw [h₂.host], fun q hq => absurd hq List.not_mem_nil, .nil⟩
  refine (allocate_gives hpos hkeeps).bind ?_
  rintro bounds d₃ ⟨hvars, hlower, hupper, hbounded, hvalues, hflags, h₃⟩
  -- The event at the end does not touch the engine, so what is shown of the engine
  -- that is made holds of the one that is returned.
  refine Exec.Gives.bind (P := Created d.info config maxRows numCols h.limits)
    (Exec.Gives.guarded ?_) fun p d' hp => Exec.Yields.emit.gives (Exec.Gives.pure hp)
  refine (h₃.zeroed_gives _).bind ?_
  rintro tableau d₄ ⟨htableau, h₄⟩
  refine Exec.Gives.guarded ((h₄.ofWords_gives (by rw [hcolVar]; exact hcols)).bind ?_)
  rintro colVar d₅ ⟨hcolVar', h₅⟩
  refine Exec.Gives.guarded ((h₅.ofWords_gives (by rw [hrowVar]; exact hrows)).bind ?_)
  rintro rowVar d₆ ⟨hrowVar', h₆⟩
  refine Exec.Gives.guarded ((h₆.ofWords_gives (by rw [hplace]; exact hpos)).bind ?_)
  rintro place d₇ ⟨hplace', h₇⟩
  refine Exec.Gives.guarded ((h₇.zeroed_gives _).bind ?_)
  rintro output d₈ ⟨houtput, h₈⟩
  refine Exec.Gives.guarded ((h₈.zeroed_gives _).bind ?_)
  rintro first d₉ ⟨hfirst, h₉⟩
  refine Exec.Gives.guarded ((h₉.zeroed_gives _).bind ?_)
  rintro second d₁₀ ⟨hsecond, h₁₀⟩
  have hfits := fits_of_keeps (p := ⟨d.info, ids, bounds, tableau, colVar, rowVar, place, output,
    (first, second), .ofDevice d.info config.maxWorkgroupSize, maxRows + numCols, 0, numCols,
    config.tolerance, false⟩) h₁₀ (fun e => ?_) (fun s => ?_)
    (Geometry.sound_ofDevice hlimit hcap hchunk) rfl rfl hvars hsize hcols
  · exact Exec.Gives.pure ⟨rfl, rfl, hfits.1, h₁₀.refuse, h₁₀.limits, hfits.2⟩
  -- Each kernel is the fresh one of its entry, and each buffer has the length it
  -- was asked for.
  · have hmem : e ∈ Entry.all := by cases e <;> decide
    rcases htold e hmem with ⟨id, hid, hk⟩
    rw [kernel, hid, Option.getD_some, hk, Option.join_some]
  · cases s with
    | sums second => cases second <;> assumption
    | lower => exact hlower
    | upper => exact hupper
    | bounded => exact hbounded
    | values => exact hvalues
    | flags => exact hflags
    | tableau => exact htableau
    | colVar => exact hcolVar'.trans hcolVar
    | rowVar => exact hrowVar'.trans hrowVar
    | place => exact hplace'.trans hplace
    | output => exact houtput

/-- The engine that is made, on any device that reports the truth and can run a workgroup.
    Nothing in it depends on what else is on the device but the numbers of its buffers and
    kernels. -/
theorem create_gives {config : Config Binary32} {maxRows numCols : Nat} {h : HostDevice}
    (hd : d.Serves h) (hinfo : d.info = h.info) (hrows : maxRows ≠ 0) (hcols : numCols ≠ 0)
    (hsize : maxRows + numCols < UInt32.size) (hcap : config.maxWorkgroupSize ≠ some 0)
    (hlimit : h.info.maxWorkgroupSize ≠ 0)
    (hchunk : (Geometry.ofDevice h.info config.maxWorkgroupSize).chunk < UInt32.size) :
    (create config maxRows numCols).Gives d fun p d' =>
      p.geometry = .ofDevice h.info config.maxWorkgroupSize ∧ p.prepared = false ∧
        p.Fits p.geometry.workgroup ((Problem.blank maxRows numCols).board config.tolerance) ∧
        ∃ c, p.Sees d' .unbound c ∧
          c.Variables ((Problem.blank maxRows numCols).board config.tolerance) := by
  have hfamily : d.info.family = .host := by rw [hinfo]; rfl
  refine (create_leaves hd hfamily hrows hcols hsize hcap (by rw [hinfo]; exact hlimit)
    (by rw [hinfo]; exact hchunk)).mono ?_
  intro p d' hp
  have hgeometry := hp.geometry
  rw [hinfo] at hgeometry
  refine ⟨hgeometry, hp.prepared, hp.fits, hp.sees ?_⟩
  rw [hgeometry]
  exact (Geometry.sound_ofDevice hlimit hcap hchunk).le

/-! ### Building on a device -/

section Building

variable {w : Attached Parallel} {v : Nat} {e : BoundEdit Binary32}

theorem inStore_eq (v : Nat) (e : BoundEdit Binary32) :
    (e.inStore v : Exec (Attached Parallel) Unit) =
      Exec.focus (fun a => (⟨a.handle.bounds, a.device⟩ : Attached Bounds.Resident))
        (fun r a => { a with device := r.device }) (Attached.onDevice fun r => e.onDevice r v) := by
  cases e <;> rfl

theorem inBounds_gives {γ : Type} {P : γ → Device → Prop} {act : Bounds.Resident → Exec Device γ}
    (h : (act w.handle.bounds).Gives w.device P) :
    (Exec.focus (fun a => (⟨a.handle.bounds, a.device⟩ : Attached Bounds.Resident))
      (fun r a => { a with device := r.device }) (Attached.onDevice act) :
      Exec (Attached Parallel) γ).Gives w fun r w' => ∃ d', P r d' ∧ w' = ⟨w.handle, d'⟩ := by
  unfold Attached.onDevice
  refine Exec.Gives.focus (Exec.Yields.view.gives ?_)
  exact Exec.Gives.focus (h.mono fun r d' hr => ⟨d', hr, rfl⟩)

theorem inBounds_stops {γ : Type} {P : Device → Prop} {act : Bounds.Resident → Exec Device γ}
    {stop : Stop} (h : (act w.handle.bounds).Stops w.device stop P) :
    (Exec.focus (fun a => (⟨a.handle.bounds, a.device⟩ : Attached Bounds.Resident))
      (fun r a => { a with device := r.device }) (Attached.onDevice act) :
      Exec (Attached Parallel) γ).Stops w stop fun w' => ∃ d', P d' ∧ w' = ⟨w.handle, d'⟩ := by
  unfold Attached.onDevice
  refine Exec.Stops.focus (Exec.Yields.view.stops ?_)
  exact Exec.Stops.focus (h.mono fun d' hd' => ⟨d', hd', rfl⟩)

theorem inStore_gives {P : Unit → Device → Prop}
    (h : (e.onDevice w.handle.bounds v).Gives w.device P) :
    (e.inStore v : Exec (Attached Parallel) Unit).Gives w fun r w' =>
      ∃ d', P r d' ∧ w' = ⟨w.handle, d'⟩ := by
  rw [inStore_eq]
  exact inBounds_gives h

theorem inStore_stops {P : Device → Prop} {stop : Stop}
    (h : (e.onDevice w.handle.bounds v).Stops w.device stop P) :
    (e.inStore v : Exec (Attached Parallel) Unit).Stops w stop fun w' =>
      ∃ d', P d' ∧ w' = ⟨w.handle, d'⟩ := by
  rw [inStore_eq]
  exact inBounds_stops h

/-- A bound of a variable that does not exist is not set. -/
theorem onDevice_stops_of_le {r : Bounds.Resident} {d : Device} (h : r.numVars ≤ v) :
    (e.onDevice r v).Stops d (.error (.indexOutOfBounds v r.numVars)) fun d' => d' = d := by
  have hcheck : (r.check v).Stops d (.error (.indexOutOfBounds v r.numVars)) fun d' => d' = d :=
    Exec.Stops.check (if_neg (Nat.not_lt_of_le h)) rfl
  cases e with
  | lower x => exact hcheck.bind
  | upper x => exact hcheck.bind
  | both i => exact hcheck.bind

/-- The engine on a device does what an engine has to do while a system is built. Bounds are
    set by transfers, and rows stay in the process until there is a search. -/
theorem builds (width : Nat) :
    Engine.Builds (β := Attached Parallel) (α := Binary32) (Ready width) where
  describes _ _ h := h.tableau
  withRows := by
    intro w b t coeff numRows h ht
    rcases h.holds with ⟨a, c, hs, hvars⟩
    exact ⟨ht, h.basis, h.fits.of_eq rfl rfl rfl, h.prepared, a, c, hs, hvars.bounds,
      hvars.values, hvars.flags⟩
  -- An edit of an engine in a solver is one of its handle on its device. The tableau and the
  -- basis are not touched.
  edit := by
    intro w b v e h hv
    rcases h.holds with ⟨a, c, hs, hvars⟩
    refine Exec.Gives.focus ((inStore_gives (edit_gives h.fits hs hvars hv e)).mono ?_)
    rintro _ _ ⟨d', ⟨c', hs', hvars'⟩, rfl⟩
    exact ⟨⟨h.tableau.maxRows, h.tableau.numRows, h.tableau.numCols, h.tableau.coeff⟩, h.basis,
      h.fits.of_eq rfl rfl rfl, h.prepared, a, c', hs', hvars'⟩
  -- A refused index leaves even the device as it is.
  editRefused := by
    intro w b v e h hv
    rw [← h.fits.boundVars] at hv ⊢
    refine Exec.Stops.focus ((inStore_stops (onDevice_stops_of_le hv)).mono ?_)
    rintro _ ⟨_, rfl, rfl⟩
    exact h

end Building

/-! ### Searches on a device -/

section Search

variable {maxRows numCols : Nat} {config : Config Binary32} {calls : List (BuildCall Binary32)}
  {host : HostDevice} {j j' : Journal} {s : Solver Parallel Binary32} {u : Traced Device}
  {t : Traced (Solver (Attached Parallel) Binary32)}

/-- A new solver on an engine that was just made describes a system without
    constraints. -/
theorem Created.describes {info : DeviceInfo} {limits : Limits} {p : Parallel} {d : Device}
    (h : Created info config maxRows numCols limits p d) (hsize : maxRows + numCols < UInt32.size)
    (hwide : p.geometry.workgroup ≤ limits.maxWorkgroupSize) :
    Solver.Describes (Ready p.geometry.workgroup)
      ((Solver.fresh maxRows numCols config p).attach d)
      ((Solver.fresh maxRows numCols config p).attach d) (.blank maxRows numCols) := by
  rcases h.sees hwide with ⟨c, hsees, hvars⟩
  exact ⟨⟨⟨rfl, rfl, rfl, Tableau.shows_empty maxRows numCols⟩,
    Basis.initial_eq_ofDimensions (by omega) (by omega), h.fits, h.prepared, _, c, hsees, hvars⟩,
    rfl, rfl, rfl⟩

/-- A solver is made through every gateway that refuses nothing and reports that a
    workgroup can be run, and no more units than a chunk has room for. -/
theorem parallel_leaves {d : Device} (hinput : Solver.checkInput maxRows numCols config = .ok ())
    (hd : d.Serves host) (hfamily : d.info.family = .host) (hlimit : d.info.maxWorkgroupSize ≠ 0)
    (hchunk : (Geometry.ofDevice d.info config.maxWorkgroupSize).chunk < UInt32.size) :
    (Solver.parallel maxRows numCols config).Gives d fun s d' => ∃ p,
      s = Solver.fresh maxRows numCols config p ∧
        Created d.info config maxRows numCols host.limits p d' := by
  rcases Solver.checkInput_eq_ok hinput with ⟨hdim, hvalid⟩
  rcases Solver.checkDimensions_eq_ok hdim with ⟨hrows, hcols, hsize⟩
  have hcap := (Solver.validate_eq_ok hvalid).2.2
  refine (Exec.Yields.check hinput).gives ?_
  refine (create_leaves hd hfamily hrows hcols hsize hcap hlimit hchunk).bind fun p d' hp => ?_
  exact Exec.Yields.emit.gives (Exec.Gives.pure ⟨p, rfl, hp⟩)

/-- A solver is made on every device that refuses nothing, can run a workgroup and has
    chunks that fit a word. It has seen no constraint, and its device is ready. -/
theorem parallel_gives {d : Device} (hinput : Solver.checkInput maxRows numCols config = .ok ())
    (hd : d.Serves host) (hinfo : d.info = host.info) (hlimit : host.info.maxWorkgroupSize ≠ 0)
    (hchunk : (Geometry.ofDevice host.info config.maxWorkgroupSize).chunk < UInt32.size) :
    (Solver.parallel maxRows numCols config).Gives d fun s d =>
      s.workspace.engine.geometry = .ofDevice host.info config.maxWorkgroupSize ∧
        Solver.Describes (Ready s.workspace.engine.geometry.workgroup) (s.attach d) (s.attach d)
          (.blank maxRows numCols) ∧
        (∃ c, s.workspace.engine.Sees d .unbound c) ∧
        ∃ engine, s = Solver.fresh maxRows numCols config engine := by
  rcases Solver.checkInput_eq_ok hinput with ⟨hdim, hvalid⟩
  have hsize := (Solver.checkDimensions_eq_ok hdim).2.2
  have hcap := (Solver.validate_eq_ok hvalid).2.2
  have hfamily : d.info.family = .host := by rw [hinfo]; rfl
  refine (parallel_leaves hinput hd hfamily (by rw [hinfo]; exact hlimit)
    (by rw [hinfo]; exact hchunk)).mono ?_
  rintro _ d' ⟨p, rfl, hp⟩
  have hgeometry := hp.geometry
  rw [hinfo] at hgeometry
  -- The geometry never makes a workgroup wider than the device reports, and this device reports
  -- the truth.
  have hwide : p.geometry.workgroup ≤ host.limits.maxWorkgroupSize := by
    rw [hgeometry]
    exact (Geometry.sound_ofDevice hlimit hcap hchunk).le
  rcases hp.sees hwide with ⟨c, hsees, -⟩
  exact ⟨hgeometry, hp.describes hsize hwide, ⟨c, hsees⟩, p, rfl⟩

/-- A device that can run no workgroup is refused. -/
theorem maxWorkgroupSize_of_create {d : Device} {p : Parallel} {u : Traced Device}
    (h : create config maxRows numCols ⟨d, j⟩ = .ok p u) : d.info.maxWorkgroupSize ≠ 0 := by
  intro hzero
  rw [create] at h
  rcases Exec.bind_eq_ok h with ⟨_, _, hview, hfail⟩
  cases hview
  rw [if_pos hzero] at hfail
  cases hfail

/-- Chunks that do not fit a word are refused, and so are the kernels of another
    family. -/
theorem fits_of_create {d : Device} {p : Parallel} {u : Traced Device}
    (h : create config maxRows numCols ⟨d, j⟩ = .ok p u) :
    (Geometry.ofDevice d.info config.maxWorkgroupSize).chunk < UInt32.size ∧
      d.info.family = .host := by
  have hlimit := maxWorkgroupSize_of_create h
  rw [create] at h
  rcases Exec.bind_eq_ok h with ⟨_, _, hview, hrest⟩
  cases hview
  rw [if_neg hlimit] at hrest
  rcases Exec.bind_eq_ok hrest with ⟨_, _, hword, hrest⟩
  rcases Exec.word_eq_ok hword with ⟨hchunk, -, -⟩
  refine ⟨hchunk, ?_⟩
  rcases Exec.bind_eq_ok hrest with ⟨_, _, hcompile, -⟩
  -- The first kernel is refused before anything is looked at but the family.
  rcases Exec.bind_eq_ok hcompile with ⟨_, _, hfirst, -⟩
  rcases Exec.bind_eq_ok hfirst with ⟨_, v, -, hhost⟩
  by_contra hne
  have hrefused : HostDevice.compile (.generalSimplex d.info.family) Entry.checkBounds.name
      = Exec.fail (.foreignSource (.generalSimplex d.info.family)) := if_pos hne
  rw [hrefused] at hhost
  cases hhost

theorem create_of_parallel {d : Device}
    (h : Solver.parallel maxRows numCols config ⟨d, j⟩ = .ok s u) :
    Solver.checkInput maxRows numCols config = .ok () ∧
      ∃ p v, create config maxRows numCols ⟨d, j⟩ = .ok p v := by
  cases hinput : Solver.checkInput maxRows numCols config with
  | error e =>
      rw [Solver.parallel, hinput] at h
      cases h
  | ok _ =>
      rw [Solver.parallel, hinput] at h
      rcases Exec.bind_eq_ok h with ⟨_, _, hcheck, hrest⟩
      cases hcheck
      rcases Exec.bind_eq_ok hrest with ⟨p, v, hcreate, -⟩
      exact ⟨rfl, p, v, hcreate⟩

/-- The solver a caller is given was made from input that makes sense. -/
theorem input_of_parallel {d : Device}
    (h : Solver.parallel maxRows numCols config ⟨d, j⟩ = .ok s u) :
    Solver.checkInput maxRows numCols config = .ok () ∧ d.info.maxWorkgroupSize ≠ 0 ∧
      (Geometry.ofDevice d.info config.maxWorkgroupSize).chunk < UInt32.size := by
  rcases create_of_parallel h with ⟨hinput, p, v, hcreate⟩
  exact ⟨hinput, maxWorkgroupSize_of_create hcreate, (fits_of_create hcreate).1⟩

/-- Its engine was just made, whatever the gateway reports. -/
theorem created_of_parallel {d : Device} (hrefuse : d.refuse = none)
    (h : Solver.parallel maxRows numCols config ⟨d, j⟩ = .ok s u) :
    ∃ p, s = Solver.fresh maxRows numCols config p ∧
      Created d.info config maxRows numCols d.host.limits p u.state := by
  rcases create_of_parallel h with ⟨hinput, p, v, hcreate⟩
  rcases fits_of_create hcreate with ⟨hchunk, hfamily⟩
  exact (parallel_leaves hinput ⟨hrefuse, rfl⟩ hfamily (maxWorkgroupSize_of_create hcreate)
    hchunk).result h

/-- The solver a caller is given has seen no constraint, and its device is ready for
    workgroups of the width that the device and the caller allow. -/
theorem fresh_of_parallel
    (h : Solver.parallel maxRows numCols config ⟨.toHost host, j⟩ = .ok s u) :
    Solver.checkInput maxRows numCols config = .ok () ∧
      s.workspace.engine.geometry = .ofDevice host.info config.maxWorkgroupSize ∧
      Solver.Describes (Ready (Geometry.ofDevice host.info config.maxWorkgroupSize).workgroup)
        (s.attach u.state) (s.attach u.state) (.blank maxRows numCols) ∧
      ∃ engine, s = Solver.fresh maxRows numCols config engine := by
  rcases input_of_parallel h with ⟨hinput, hlimit, hchunk⟩
  rcases (parallel_gives hinput (Device.serves_toHost host) rfl hlimit hchunk).result h with
    ⟨hgeometry, hdesc, -, hfresh⟩
  rw [hgeometry] at hdesc
  exact ⟨hinput, hgeometry, hdesc, hfresh⟩

theorem describes_of_parallel
    (h : Solver.parallel maxRows numCols config ⟨.toHost host, j⟩ = .ok s u) :
    Solver.Describes (Ready s.workspace.engine.geometry.workgroup) (s.attach u.state)
        (s.attach u.state) (.blank maxRows numCols) ∧
      s.config = config ∧ s.history = #[] := by
  rcases fresh_of_parallel h with ⟨-, hgeometry, hdesc, engine, rfl⟩
  rw [hgeometry]
  exact ⟨hdesc, rfl, rfl⟩

variable (hmake : Solver.parallel maxRows numCols config ⟨.toHost host, j⟩ = .ok s u)
  (hbuild : Solver.build calls ⟨s.attach u.state, j'⟩ = .ok () t)
include hmake hbuild

/-- A solver that was made and built on a device is ready for its problem. All statements on
    searches of such a solver begin here. -/
theorem ready_of_build :
    Ready s.workspace.engine.geometry.workgroup t.state.workspace
        ((Problem.ofCalls maxRows numCols calls).board config.tolerance) ∧
      t.state.phase = .building ∧ t.state.history = #[] := by
  rcases describes_of_parallel hmake with ⟨hdesc, hconfig, hhistory⟩
  have hbuilt := (Solver.build_gives (builds _) calls hdesc).result hbuild
  have htol : (s.attach u.state).config.tolerance = config.tolerance :=
    congrArg Config.tolerance hconfig
  refine ⟨?_, hbuilt.phase, hbuilt.history.trans hhistory⟩
  rw [← htol]
  exact hbuilt.ready

/-- How a search on a device can end, for a solver that was made and built there. It can
    only be stuck in a sum, and only for the reasons that the widths give. -/
theorem ending_of_build (fuel : Nat) :
    Solver.Ending (groupedSum s.workspace.engine.geometry.workgroup)
      (sumObstacle s.workspace.engine.geometry.workgroup)
      (Shows s.workspace.engine.geometry.workgroup) t.state
      ((Problem.ofCalls maxRows numCols calls).board config.tolerance) fuel
      (Solver.solve fuel t) := by
  rcases ready_of_build hmake hbuild with ⟨hready, hphase, -⟩
  exact Solver.solve_ending (follows _) (Problem.valid_board (Problem.length_rows_ofCalls _ _ _) _)
    hready hphase fuel t.journal

/-- Between two iterations the device stands at a board of the search. -/
theorem at_board_of_build {n : Nat} {v : Traced (Solver (Attached Parallel) Binary32)}
    (hreach : Solver.Reaches t n v) :
    ∃ l b, Board.Run (groupedSum s.workspace.engine.geometry.workgroup)
        ((Problem.ofCalls maxRows numCols calls).board config.tolerance) l b ∧ l.length = n ∧
      Solver.At (Shows s.workspace.engine.geometry.workgroup) t.state v.state b l := by
  rcases ready_of_build hmake hbuild with ⟨hready, -, -⟩
  exact hreach.at_board (follows _) (Problem.valid_board (Problem.length_rows_ofCalls _ _ _) _)
    hready

end Search

end Parallel

end BoundedSimplex
