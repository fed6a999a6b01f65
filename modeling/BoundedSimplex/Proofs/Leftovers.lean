import BoundedSimplex.Proofs.Creation
import Mathlib.Data.List.Nodup

/-!
# What a Failed Engine Leaves Behind

The buffers and kernels that stay on a device on which no engine could be
made.

An engine asks a device for nine kernels and then for twelve buffers, and the
device may refuse any one of these requests. What was handed out before has to
be given back, and this is split between three places: kernels are given back
while others are still being compiled, a buffer is given back if anything
after it stops, and the rest belongs to the engine. What was handed out since
the start is counted here from request to request: `Device.Gained` lists it,
the newest first, and says that nothing else on the device has changed.

Two things fall between these places. Once all kernels are compiled they
belong to an engine that does not exist yet, so a refused buffer leaves all
nine of them behind. And a buffer that was handed out but could not be filled
was not made yet, so nobody gives it back.

## Main definitions

* `Handed`: The places of a table that were taken since.
* `Device.Gained`: The buffers and kernels that were handed out since.
* `Parallel.bufferIds`, `Parallel.kernelIds`: The buffers and kernels of an engine.
* `Parallel.Failure`: Why there is no engine, and how much is left behind.

## Theorems

* `Device.Gained.liveBuffers_eq`, `Device.Gained.liveKernels_eq`: Their number.
* `Parallel.compileAll_ends`: Kernels that could not all be compiled are gone.
* `leftovers_of_failed`: What is left behind where there is no engine.
* `not_restored_of_failed`: It is not always nothing.
-/

namespace BoundedSimplex

/-! ### Tables -/

/-- These places of a table were free before and are taken now, and the others
    hold what they held. -/
structure Handed {X : Type} (old new : Array (Option X)) (ids : List Nat) : Prop where
  size : old.size ≤ new.size
  kept : ∀ id, id ∉ ids → (new[id]?).join = (old[id]?).join
  taken : ∀ id ∈ ids, old.size ≤ id ∧ (new[id]?).join.isSome
  nodup : ids.Nodup

namespace Handed

variable {X : Type} {old new : Array (Option X)} {ids : List Nat} {id : Nat}

theorem refl (old : Array (Option X)) : Handed old old [] :=
  ⟨Nat.le_refl _, fun _ _ => rfl, fun _ hid => absurd hid List.not_mem_nil, List.nodup_nil⟩

theorem lt_size (h : Handed old new ids) (hid : id ∈ ids) : id < new.size := by
  by_contra hge
  have hsome := (h.taken id hid).2
  rw [Array.getElem?_eq_none (Nat.le_of_not_lt hge)] at hsome
  cases hsome

theorem push (h : Handed old new ids) (x : X) :
    Handed old (new.push (some x)) (new.size :: ids) := by
  have hfree : new.size ∉ ids := fun hid => Nat.lt_irrefl _ (h.lt_size hid)
  refine ⟨?_, fun id hid => ?_, fun id hid => ?_, List.nodup_cons.mpr ⟨hfree, h.nodup⟩⟩
  · rw [Array.size_push]
    exact Nat.le_succ_of_le h.size
  · rcases not_or.mp (mt List.mem_cons.mpr hid) with ⟨hne, hid⟩
    rw [Array.getElem?_push, if_neg hne]
    exact h.kept id hid
  · rw [Array.getElem?_push]
    rcases List.mem_cons.mp hid with rfl | hid
    · rw [if_pos rfl]
      exact ⟨h.size, rfl⟩
    · rw [if_neg (Nat.ne_of_lt (h.lt_size hid))]
      exact h.taken id hid

/-- A place that is given back is as free as it was. -/
theorem clear (l : List Nat) {r : List Nat} (h : Handed old new (l ++ id :: r)) :
    Handed old (new.setIfInBounds id none) (l ++ r) := by
  rcases List.nodup_cons.mp (List.perm_middle.nodup_iff.mp h.nodup) with ⟨hid, hnodup⟩
  have hmem : ∀ other, other ∈ l ++ id :: r ↔ other = id ∨ other ∈ l ++ r :=
    fun other => List.perm_middle.mem_iff.trans List.mem_cons
  refine ⟨?_, fun other hother => ?_, fun other hother => ?_, hnodup⟩
  · rw [Array.size_setIfInBounds]
    exact h.size
  · rw [Array.getElem?_setIfInBounds]
    by_cases heq : id = other
    · subst heq
      -- It was beyond the end of the old table.
      have hold := (h.taken id ((hmem id).mpr (.inl rfl))).1
      rw [if_pos rfl, Array.getElem?_eq_none hold]
      split <;> rfl
    · rw [if_neg heq]
      refine h.kept other fun hin => ?_
      exact ((hmem other).mp hin).elim (fun h => heq h.symm) hother
  · have hne : id ≠ other := fun heq => hid (heq ▸ hother)
    rw [Array.getElem?_setIfInBounds, if_neg hne]
    exact h.taken other ((hmem other).mpr (.inr hother))

/-- What a new place holds does not matter. -/
theorem store (h : Handed old new ids) (hid : id ∈ ids) (x : X) :
    Handed old (new.setIfInBounds id (some x)) ids := by
  refine ⟨?_, fun other hother => ?_, fun other hother => ?_, h.nodup⟩
  · rw [Array.size_setIfInBounds]
    exact h.size
  · have hne : id ≠ other := fun heq => hother (heq ▸ hid)
    rw [Array.getElem?_setIfInBounds, if_neg hne]
    exact h.kept other hother
  · rw [Array.getElem?_setIfInBounds]
    by_cases heq : id = other
    · rw [if_pos heq, if_pos (h.lt_size hid), ← heq]
      exact ⟨(h.taken id hid).1, rfl⟩
    · rw [if_neg heq]
      exact h.taken other hother

/-- The places that are taken are those that were, and the new ones. -/
theorem perm_live (h : Handed old new ids) :
    ((List.range new.size).filter fun id => (new[id]?).join.isSome).Perm
      (ids ++ (List.range old.size).filter fun id => (old[id]?).join.isSome) := by
  -- The new places come after all that there were, so none of them was live before.
  have hold : ∀ id, id ∈ ids → id ∉ (List.range old.size).filter fun id => (old[id]?).join.isSome :=
    fun id hid hin => Nat.not_le_of_lt (List.mem_range.mp (List.mem_filter.mp hin).1)
      (h.taken id hid).1
  refine (List.perm_ext_iff_of_nodup (List.nodup_range.filter _)
    (h.nodup.append (List.nodup_range.filter _) hold)).mpr fun id => ?_
  simp only [List.mem_append, List.mem_filter, List.mem_range]
  constructor
  · intro hin
    by_cases hid : id ∈ ids
    · exact .inl hid
    · rw [h.kept id hid] at hin
      refine .inr ⟨?_, hin.2⟩
      -- A place that is neither new nor one of the old is still free.
      by_contra hge
      rw [Array.getElem?_eq_none (Nat.le_of_not_lt hge)] at hin
      cases hin.2
  · rintro (hid | ⟨hlt, hsome⟩)
    · exact ⟨h.lt_size hid, (h.taken id hid).2⟩
    · have hid : id ∉ ids := fun hid => Nat.not_le_of_lt hlt (h.taken id hid).1
      rw [h.kept id hid]
      exact ⟨Nat.lt_of_lt_of_le hlt h.size, hsome⟩

end Handed

/-! ### Requests that may be refused -/

namespace Device

/-- These buffers and kernels were handed out since, and the device still holds all others
    as it did. A failure can only add to the device, so this is all there is to say about
    what it leaves behind. -/
structure Gained (d d' : Device) (buffers kernels : List Nat) : Prop where
  refuse : d'.refuse = d.refuse
  buffers : Handed d.host.memory.buffers d'.host.memory.buffers buffers
  kernels : Handed d.host.kernels d'.host.kernels kernels

/-- The device holds exactly the buffers and kernels that it held. -/
def Restored (d d' : Device) : Prop := d.Gained d' [] []

/-- A request of this kind is the one to refuse, and it was. -/
def Refused (d : Device) (r : Request) (e : Stop) : Prop :=
  ∃ n error, d.refuse = some ⟨r, n, error⟩ ∧ e = .error error

/-- Why there are no more buffers, and what was handed out until then. A buffer that cannot
    be filled is among it, because it is handed out before anything is written to it. -/
inductive Short (d : Device) (buffers kernels : List Nat) (e : Stop) (d' : Device) : Prop where
  /-- No buffer was handed out. -/
  | allocate (hrefused : d.Refused .allocate e) (h : d.Gained d' buffers kernels)
  /-- The last one was not filled. -/
  | upload {id : Nat} (hrefused : d.Refused .toDevice e) (h : d.Gained d' (id :: buffers) kernels)

/-- Why a kernel was not compiled: the request was refused, or the source is
    for another family of devices. -/
inductive Uncompiled (d : Device) (source : KernelSource) (e : Stop) : Prop where
  | refused (h : d.Refused .compile e)
  | foreign (hfamily : source.family ≠ .host) (he : e = .error (.foreignSource source))

variable {d d₁ : Device} {buffers kernels : List Nat}

namespace Gained

theorem refl (d : Device) : d.Gained d [] [] := ⟨rfl, .refl _, .refl _⟩

theorem liveBuffers_eq (h : d.Gained d₁ buffers kernels) :
    d₁.host.liveBuffers = buffers.length + d.host.liveBuffers := by
  have hlength := h.buffers.perm_live.length_eq
  rw [List.length_append] at hlength
  exact hlength

theorem liveKernels_eq (h : d.Gained d₁ buffers kernels) :
    d₁.host.liveKernels = kernels.length + d.host.liveKernels := by
  have hlength := h.kernels.perm_live.length_eq
  rw [List.length_append] at hlength
  exact hlength

theorem ask_ends (h : d.Gained d₁ buffers kernels) (r : Request) :
    (ask r).Ends d₁ (fun _ d' => d'.host = d₁.host ∧ d.Gained d' buffers kernels)
      fun e d' => d.Refused r e ∧ d.Gained d' buffers kernels := by
  refine Exec.Yields.state.ends ?_
  refine Exec.Yields.update.ends ?_
  have hcounted : d.Gained { d₁ with tally := d₁.tally.add r } buffers kernels :=
    ⟨h.refuse, h.buffers, h.kernels⟩
  split
  · rename_i error hrefusal
    have hrefuse := h.refuse.symm.trans (refusal?_eq_some_iff.mp hrefusal)
    exact Exec.Ends.fail ⟨⟨_, error, hrefuse, rfl⟩, hcounted⟩
  · exact Exec.Ends.pure ⟨rfl, hcounted⟩

/-- The new buffer has the number after the last one. -/
theorem allocate_ends (h : d.Gained d₁ buffers kernels) (bytes : Nat) :
    (allocate bytes).Ends d₁
      (fun id d' => d.Gained d' (id :: buffers) kernels ∧
        d'.host.memory.words? id = some (Array.replicate ((bytes + 3) / 4) 0))
      fun e d' => d.Refused .allocate e ∧ d.Gained d' buffers kernels := by
  refine (h.ask_ends .allocate).bind fun _ d₂ ⟨_, h₂⟩ => ?_
  -- The gateway agreed, and the device itself never fails to make a buffer.
  have hhost : (onHost (HostDevice.allocate bytes)).Gives d₂ fun id d' =>
      d.Gained d' (id :: buffers) kernels ∧
        d'.host.memory.words? id = some (Array.replicate ((bytes + 3) / 4) 0) := by
    refine Exec.Gives.focus ((d₂.host.allocate_gives bytes).mono ?_)
    rintro id _ ⟨rfl, rfl⟩
    refine ⟨⟨h₂.refuse, h₂.buffers.push _, h₂.kernels⟩, ?_⟩
    show (d₂.host.memory.allocate _).words? _ = _
    rw [Memory.words?_allocate, if_pos rfl]
  refine hhost.ends.bind fun id d₃ h₃ => ?_
  refine Exec.Yields.update.ends ?_
  exact Exec.Ends.pure ⟨⟨h₃.1.refuse, h₃.1.buffers, h₃.1.kernels⟩, h₃.2⟩

/-- A new buffer can be filled unless the transfer is refused. -/
theorem write_ends {id : Nat} {ws data : Words} (h : d.Gained d₁ buffers kernels)
    (hid : id ∈ buffers) (hws : d₁.host.memory.words? id = some ws)
    (hend : 0 + data.size ≤ ws.size) :
    (write id 0 data).Ends d₁ (fun _ d' => d.Gained d' buffers kernels)
      fun e d' => d.Refused .toDevice e ∧ d.Gained d' buffers kernels := by
  refine (h.ask_ends .toDevice).bind fun _ d₂ ⟨hhost, h₂⟩ => ?_
  rw [← hhost] at hws
  have hwrite : (onHost (HostDevice.write id 0 data)).Gives d₂ fun _ d' =>
      d.Gained d' buffers kernels := by
    refine Exec.Gives.focus ((HostDevice.write_gives hws hend).mono ?_)
    rintro _ _ rfl
    exact ⟨h₂.refuse, h₂.buffers.store hid _, h₂.kernels⟩
  refine hwrite.ends.bind fun _ d₃ h₃ => ?_
  exact Exec.Gives.ends (Exec.Gives.update ⟨h₃.refuse, h₃.buffers, h₃.kernels⟩)

/-- A new kernel, unless the device refuses it or is of another family. -/
theorem compile_ends (h : d.Gained d₁ buffers kernels) (source : KernelSource) (e : Entry) :
    (compile source e.name).Ends d₁ (fun id d' => d.Gained d' buffers (id :: kernels))
      fun stop d' => d.Uncompiled source stop ∧ d.Gained d' buffers kernels := by
  refine ((h.ask_ends .compile).mono_stop fun _ _ hstop =>
    ⟨.refused hstop.1, hstop.2⟩).bind fun _ d₂ ⟨_, h₂⟩ => ?_
  -- Two things can be wrong with a kernel: the gateway refuses it, or it is for devices of
  -- another family.
  by_cases hsource : source.family = .host
  · refine Exec.Gives.ends (Exec.Gives.focus ((d₂.host.compile_gives hsource e).mono ?_))
    rintro id _ ⟨rfl, rfl⟩
    exact ⟨h₂.refuse, h₂.buffers, h₂.kernels.push _⟩
  · have hforeign : (HostDevice.compile source e.name).Stops d₂.host
        (.error (.foreignSource source)) fun host => host = d₂.host := by
      unfold HostDevice.compile
      rw [if_pos hsource]
      exact Exec.Stops.fail rfl
    refine Exec.Stops.ends (Exec.Stops.focus (hforeign.mono ?_))
    rintro _ rfl
    exact ⟨.foreign hsource rfl, h₂⟩

theorem release (l : List Nat) {id : Nat} {r : List Nat} (h : d.Gained d₁ (l ++ id :: r) kernels) :
    d.Gained (d₁.release id) (l ++ r) kernels :=
  ⟨h.refuse, h.buffers.clear l, h.kernels⟩

theorem releaseKernel {id : Nat} (h : d.Gained d₁ buffers (id :: kernels)) :
    d.Gained (d₁.releaseKernel id) buffers kernels :=
  ⟨h.refuse, h.buffers, h.kernels.clear []⟩

/-! ### New buffers -/

theorem zeroed_ends (h : d.Gained d₁ buffers kernels) (n : Nat) :
    (Buffer.zeroed n).Ends d₁ (fun b d' => d.Gained d' (b.id :: buffers) kernels)
      (d.Short buffers kernels) := by
  refine Exec.Ends.bind ((h.allocate_ends _).mono_stop fun _ _ hstop =>
    .allocate hstop.1 hstop.2) fun id d₂ h₂ => ?_
  exact Exec.Ends.pure h₂.1

theorem ofWords_ends (h : d.Gained d₁ buffers kernels) (ws : Words) :
    (Buffer.ofWords ws).Ends d₁ (fun b d' => d.Gained d' (b.id :: buffers) kernels)
      (d.Short buffers kernels) := by
  unfold Buffer.ofWords
  split
  · exact h.zeroed_ends 0
  · refine Exec.Ends.bind ((h.allocate_ends _).mono_stop fun _ _ hstop =>
      .allocate hstop.1 hstop.2) fun id d₂ ⟨h₂, hws⟩ => ?_
    have hroom : 0 + ws.size ≤ (Array.replicate ((4 * ws.size + 3) / 4) (0 : UInt32)).size := by
      rw [Array.size_replicate]
      omega
    -- The number is known to the operation alone, so it stays if the transfer is refused.
    refine Exec.Ends.bind ((h₂.write_ends List.mem_cons_self hws hroom).mono_stop
      fun _ _ hstop => .upload hstop.1 hstop.2) fun _ d₃ h₃ => ?_
    exact Exec.Ends.pure h₃

end Gained

/-! ### What is given back -/

theorem Short.release {e : Stop} (l : List Nat) {id : Nat} {r : List Nat}
    (h : d.Short (l ++ id :: r) kernels e d₁) : d.Short (l ++ r) kernels e (d₁.release id) := by
  cases h with
  | allocate hrefused h => exact .allocate hrefused (h.release l)
  | @upload id' hrefused h => exact .upload hrefused (h.release (id' :: l))

end Device

section Guarding

variable {d d₁ : Device} {buffers kernels : List Nat} {α : Type} {act : Exec Device α}
  {P : α → Device → Prop}

theorem Buffer.guarding_ends {b : Buffer} (h : act.Ends d₁ P (d.Short (b.id :: buffers) kernels)) :
    (b.guarding act).Ends d₁ P (d.Short buffers kernels) :=
  Exec.Ends.guarded (h.mono_stop fun _ _ hstop => hstop.release [])

namespace Bounds.Resident

/-- The buffers of the bounds, the newest first. -/
def ids (r : Resident) : List Nat :=
  [r.flags.id, r.values.id, r.bounded.id, r.upper.id, r.lower.id]

theorem guarding_ends {r : Resident} (h : act.Ends d₁ P (d.Short (r.ids ++ buffers) kernels)) :
    (r.guarding act).Ends d₁ P (d.Short buffers kernels) := by
  refine Exec.Ends.guarded (h.mono_stop fun _ _ hstop => ?_)
  -- They are given back in the order in which they were made.
  have hlower := Device.Short.release [r.flags.id, r.values.id, r.bounded.id, r.upper.id] hstop
  have hupper := Device.Short.release [r.flags.id, r.values.id, r.bounded.id] hlower
  have hbounded := Device.Short.release [r.flags.id, r.values.id] hupper
  have hvalues := Device.Short.release [r.flags.id] hbounded
  exact Device.Short.release [] hvalues

theorem allocate_ends (h : d.Gained d₁ buffers kernels) (maxRows numCols : Nat) :
    (allocate maxRows numCols).Ends d₁ (fun r d' => d.Gained d' (r.ids ++ buffers) kernels)
      (d.Short buffers kernels) := by
  refine (h.zeroed_ends _).bind fun lower d₂ h₂ => Buffer.guarding_ends ?_
  refine (h₂.zeroed_ends _).bind fun upper d₃ h₃ => Buffer.guarding_ends ?_
  refine (h₃.ofWords_ends _).bind fun bounded d₄ h₄ => Buffer.guarding_ends ?_
  refine (h₄.zeroed_ends _).bind fun values d₅ h₅ => Buffer.guarding_ends ?_
  refine (h₅.ofWords_ends _).bind fun flags d₆ h₆ => ?_
  exact Exec.Ends.pure h₆

end Bounds.Resident

end Guarding

/-! ### Engines that could not be made -/

namespace Parallel

variable {d : Device} {maxRows numCols : Nat} {config : Config Binary32}

/-- Kernels that could not all be compiled are given back. The induction is on the kernels
    still to be compiled, with those before it in hand. -/
theorem compileAll_ends (source : KernelSource) {buffers : List Nat} (es : List Entry) :
    ∀ {d₁ : Device} {kernels : List Nat}, d.Gained d₁ buffers kernels →
      (compileAll source es).Ends d₁
        (fun ks d' => ks.map Prod.fst = es ∧
          d.Gained d' buffers ((ks.map Prod.snd).reverse ++ kernels))
        fun stop d' => d.Uncompiled source stop ∧ d.Gained d' buffers kernels := by
  -- Induction on the entries. Each kernel is guarded by the ones that come after it, so a failure
  -- gives all of them back.
  induction es with
  | nil => exact fun h => Exec.Ends.pure ⟨rfl, h⟩
  | cons e rest ih =>
      intro d₁ kernels h
      refine (h.compile_ends source e).bind fun id d₂ h₂ => ?_
      refine (Exec.Ends.guarded ((ih h₂).mono_stop fun _ _ hstop =>
        ⟨hstop.1, hstop.2.releaseKernel⟩)).bind fun ks d₃ h₃ => ?_
      refine Exec.Ends.pure ⟨by rw [List.map_cons, h₃.1], ?_⟩
      rw [List.map_cons, List.reverse_cons, List.append_assoc]
      exact h₃.2

/-- The buffers of an engine, the newest first. -/
def bufferIds (p : Parallel) : List Nat := Slot.all.map fun s => (p.slot s).id

/-- The kernels of an engine, the newest first. -/
def kernelIds (p : Parallel) : List Nat := (p.kernels.map Prod.snd).reverse

/-- Why there is no engine on a device for a cap on its workgroups, and how many buffers and
    kernels are left behind. The kernels have a guard of their own while they are compiled,
    and nothing guards them after that. -/
inductive Failure (d : Device) (cap : Option Nat) (e : Stop) : Nat → Nat → Prop where
  /-- The device can run no workgroup. -/
  | workgroup (hzero : d.info.maxWorkgroupSize = 0) (he : e = .error (.zeroWorkgroup d.info)) :
      Failure d cap e 0 0
  /-- A chunk does not fit a word, and nothing was asked of the device. -/
  | chunk (hover : UInt32.size ≤ (Geometry.ofDevice d.info cap).chunk) (he : e = .overflow) :
      Failure d cap e 0 0
  /-- A kernel was not compiled, and those compiled before were given back. -/
  | kernel (h : d.Uncompiled (.generalSimplex d.info.family) e) : Failure d cap e 0 0
  /-- A buffer was not handed out, and all the kernels stay. -/
  | buffer (h : d.Refused .allocate e) : Failure d cap e 0 Entry.all.length
  /-- A buffer was not filled, and it stays with all the kernels. -/
  | upload (h : d.Refused .toDevice e) : Failure d cap e 1 Entry.all.length

/-- What an engine that was not made has left on a device. -/
def LeftBehind (d : Device) (cap : Option Nat) (e : Stop) (d' : Device) : Prop :=
  ∃ buffers kernels, Failure d cap e buffers.length kernels.length ∧ d.Gained d' buffers kernels

theorem leftBehind_of_short {cap : Option Nat} {kernels : List Nat} {e : Stop} {d' : Device}
    (hlength : kernels.length = Entry.all.length) (h : d.Short [] kernels e d') :
    LeftBehind d cap e d' := by
  cases h with
  | allocate hrefused h => exact ⟨[], kernels, hlength ▸ .buffer hrefused, h⟩
  | @upload id hrefused h => exact ⟨[id], kernels, hlength ▸ .upload hrefused, h⟩

/-- If there is an engine, what was handed out is what the engine owns. If there is none,
    what was handed out and not given back is listed by `LeftBehind`, by the step that
    failed. -/
theorem create_ends (d : Device) (maxRows numCols : Nat) (config : Config Binary32) :
    (create config maxRows numCols).Ends d (fun p d' => p.kernels.map Prod.fst = Entry.all ∧
      d.Gained d' p.bufferIds p.kernelIds) (LeftBehind d config.maxWorkgroupSize) := by
  unfold create
  refine Exec.Yields.view.ends ?_
  by_cases hzero : d.info.maxWorkgroupSize = 0
  · rw [if_pos hzero]
    exact Exec.Ends.fail ⟨[], [], .workgroup hzero rfl, .refl d⟩
  · rw [if_neg hzero]
    -- The chunk is computed before anything is asked of the device, so an engine that stops there
    -- leaves nothing.
    refine Exec.Ends.word_bind (fun hchunk => ?_) fun hover => ⟨[], [], .chunk hover rfl, .refl d⟩
    refine ((compileAll_ends _ Entry.all (.refl d)).mono_stop fun _ _ hstop =>
      ⟨[], [], .kernel hstop.1, hstop.2⟩).bind fun ks d₂ h₂ => ?_
    rcases h₂ with ⟨hentries, h₂⟩
    have hlength : (ks.map Prod.snd).reverse.length = Entry.all.length := by
      rw [List.length_reverse, List.length_map, ← hentries, List.length_map]
    rw [List.append_nil] at h₂
    -- Only a failure among the kernels is cleaned up after. From here on the kernels stay behind
    -- whatever happens.
    refine ((Bounds.Resident.allocate_ends h₂ _ _).mono_stop fun _ _ hstop =>
      leftBehind_of_short hlength hstop).bind fun bounds d₃ h₃ => ?_
    refine Exec.Ends.bind (P := fun p d' => p.kernels.map Prod.fst = Entry.all ∧
      d.Gained d' p.bufferIds p.kernelIds) ?_ fun _ _ hp =>
        Exec.Yields.emit.ends (Exec.Ends.pure hp)
    refine (Bounds.Resident.guarding_ends ?_).mono_stop fun _ _ hstop =>
      leftBehind_of_short hlength hstop
    -- Seven more buffers, each guarded by the next ones.
    refine (h₃.zeroed_ends _).bind fun tableau d₄ h₄ => Buffer.guarding_ends ?_
    refine (h₄.ofWords_ends _).bind fun colVar d₅ h₅ => Buffer.guarding_ends ?_
    refine (h₅.ofWords_ends _).bind fun rowVar d₆ h₆ => Buffer.guarding_ends ?_
    refine (h₆.ofWords_ends _).bind fun place d₇ h₇ => Buffer.guarding_ends ?_
    refine (h₇.zeroed_ends _).bind fun output d₈ h₈ => Buffer.guarding_ends ?_
    refine (h₈.zeroed_ends _).bind fun first d₉ h₉ => Buffer.guarding_ends ?_
    exact (h₉.zeroed_ends _).bind fun _ _ h₁₀ => Exec.Ends.pure ⟨hentries, h₁₀⟩

end Parallel

/-- A solver that was refused for its input has asked nothing of the device. -/
theorem Solver.parallel_ends (d : Device) (maxRows numCols : Nat) (config : Config Binary32) :
    (parallel maxRows numCols config).Ends d
      (fun s d' => s.workspace.engine.kernels.map Prod.fst = Entry.all ∧
        d.Gained d' s.workspace.engine.bufferIds s.workspace.engine.kernelIds) fun e d' =>
      (∃ err, checkInput maxRows numCols config = .error err ∧ e = .error err ∧ d' = d) ∨
        Parallel.LeftBehind d config.maxWorkgroupSize e d' := by
  unfold parallel
  cases hinput : checkInput maxRows numCols config with
  | error err =>
      refine Exec.Stops.ends (Exec.Stops.bind (Exec.Stops.check rfl ?_))
      exact .inl ⟨err, rfl, rfl, rfl⟩
  -- After the engine there is nothing left that can fail.
  | ok _ =>
      refine (Exec.Yields.check rfl).ends ?_
      refine ((Parallel.create_ends _ maxRows numCols config).mono_stop fun _ _ hstop =>
        .inr hstop).bind fun engine d₂ h₂ => ?_
      exact Exec.Yields.emit.ends (Exec.Ends.pure h₂)

/-- Whatever a device refuses while an engine is made on it, its other buffers and kernels
    are as before, and what is left behind depends on the request that was refused only:
    nothing, the nine kernels, or these and one buffer. The other buffers that were handed
    out before are given back. -/
theorem leftovers_of_failed (d : Device) (maxRows numCols : Nat) (config : Config Binary32)
    (j : Journal) :
    (∀ e u, Parallel.create config maxRows numCols ⟨d, j⟩ = .error e u →
      Parallel.LeftBehind d config.maxWorkgroupSize e u.state) ∧
    ∀ e u, Solver.parallel maxRows numCols config ⟨d, j⟩ = .error e u →
      (∃ err, Solver.checkInput maxRows numCols config = .error err ∧ e = .error err ∧
        u.state = d) ∨ Parallel.LeftBehind d config.maxWorkgroupSize e u.state := by
  constructor
  · intro e u hrun
    exact (Parallel.create_ends d maxRows numCols config).stopped hrun
  · intro e u hrun
    exact (Solver.parallel_ends d maxRows numCols config).stopped hrun

/-! ### A device that is not restored -/

/-- A device with nothing on it that refuses the first request of a kind. -/
def Device.refusing (r : Request) : Device := { ofLimits {} with refuse := some (.injected r 0) }

/-- Nine kernels stay if there is no buffer, and a buffer too if it cannot be
    filled. -/
theorem stops_refusing :
    (∃ e u, Parallel.create Config.standard 1 1 ⟨.refusing .allocate, #[]⟩ = .error e u ∧
      u.state.host.liveKernels = 9) ∧
    (∃ e u, Solver.parallel 1 1 Config.standard ⟨.refusing .allocate, #[]⟩ = .error e u ∧
      u.state.host.liveKernels = 9) ∧
    ∃ e u, Solver.parallel 1 1 Config.standard ⟨.refusing .toDevice, #[]⟩ = .error e u ∧
      u.state.host.liveBuffers = 1 := by
  -- Three evaluations on a device that refuses its first allocation, or its first upload.
  have hcreate : Exec.stopsWith (Parallel.create Config.standard 1 1 ⟨.refusing .allocate, #[]⟩)
      (fun _ u => u.state.host.liveKernels == 9) = true := by decide +kernel
  have hfull : Exec.stopsWith (Solver.parallel 1 1 Config.standard ⟨.refusing .allocate, #[]⟩)
      (fun _ u => u.state.host.liveKernels == 9) = true := by decide +kernel
  have hdeaf : Exec.stopsWith (Solver.parallel 1 1 Config.standard ⟨.refusing .toDevice, #[]⟩)
      (fun _ u => u.state.host.liveBuffers == 1) = true := by decide +kernel
  refine ⟨?_, ?_, ?_⟩
  · rcases Exec.exists_of_stopsWith hcreate with ⟨e, u, hrun, hlive⟩
    exact ⟨e, u, hrun, beq_iff_eq.mp hlive⟩
  · rcases Exec.exists_of_stopsWith hfull with ⟨e, u, hrun, hlive⟩
    exact ⟨e, u, hrun, beq_iff_eq.mp hlive⟩
  · rcases Exec.exists_of_stopsWith hdeaf with ⟨e, u, hrun, hlive⟩
    exact ⟨e, u, hrun, beq_iff_eq.mp hlive⟩

/-- A solver that could not be made has left kernels behind on one of these
    devices, and a buffer on the other. -/
theorem not_restored_of_failed :
    (∃ e u, Solver.parallel 1 1 Config.standard ⟨.refusing .allocate, #[]⟩ = .error e u ∧
      ¬ (Device.refusing .allocate).Restored u.state) ∧
    ∃ e u, Solver.parallel 1 1 Config.standard ⟨.refusing .toDevice, #[]⟩ = .error e u ∧
      ¬ (Device.refusing .toDevice).Restored u.state := by
  rcases stops_refusing with ⟨-, ⟨e, u, hfull, hkernels⟩, e', u', hdeaf, hbuffers⟩
  refine ⟨⟨e, u, hfull, fun hrestored => ?_⟩, e', u', hdeaf, fun hrestored => ?_⟩
  · have hlive := hrestored.liveKernels_eq
    rw [hkernels] at hlive
    revert hlive
    decide
  · have hlive := hrestored.liveBuffers_eq
    rw [hbuffers] at hlive
    revert hlive
    decide

/-- What stays there is all there is. -/
theorem leftovers_of_failed_refusing :
    (∃ e u, Parallel.create Config.standard 1 1 ⟨.refusing .allocate, #[]⟩ = .error e u ∧
      Parallel.LeftBehind (.refusing .allocate) none e u.state) ∧
    ∃ e u, Solver.parallel 1 1 Config.standard ⟨.refusing .allocate, #[]⟩ = .error e u ∧
      ((∃ err, Solver.checkInput 1 1 Config.standard = .error err ∧ e = .error err ∧
        u.state = .refusing .allocate) ∨
          Parallel.LeftBehind (.refusing .allocate) none e u.state) := by
  have h := leftovers_of_failed (.refusing .allocate) 1 1 Config.standard #[]
  rcases stops_refusing with ⟨⟨e, u, hcreate, -⟩, ⟨e', u', hfull, -⟩, -⟩
  exact ⟨⟨e, u, hcreate, h.1 e u hcreate⟩, e', u', hfull, h.2 e' u' hfull⟩

end BoundedSimplex
