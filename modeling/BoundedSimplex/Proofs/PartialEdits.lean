import BoundedSimplex.Proofs.Calm
import BoundedSimplex.Proofs.Transfers

/-!
# Calls That Are Cut Off

What can be read of bounds after a call that was to set them was refused.

A call that sets bounds writes values first and the mask last. If the device
refuses one of its transfers, the call gives up where it is and takes nothing
back. What it left behind can be said from the mask alone, which is as it was: the
same sides are bounded. A side without a bound reads as none whatever word was
written for it. A side with a bound reads its word, so if that was written before
the refusal, the new word is read, and zero where the bound was to be cleared.

All other variables are as they were. So is the variable itself if there was no
variable of that number, or if the mask could not be read, or if the first word
could not be written.

## Main definitions

* `readBounds`: Reading both bounds of a variable.
* `Bounds.Resident.interval`, `Bounds.Resident.told`: The bounds that the words of a
  memory tell, and what reading them gives.
* `BoundEdit.halfway`: The bounds after the first writes of a call.
* `Device.Quiet`: A device that refuses nothing any more.

## Theorems

* `Bounds.Resident.inMemory_of_allocate`: The buffers of a store that was made.
* `Bounds.Resident.InMemory.interval_change`: The words after the first changes of a call.
* `Bounds.Resident.readBounds_replies`: Reading tells what the words do.
* `Bounds.Resident.bounds_after_refusal`: What is read after a call that stopped.
* `Bounds.Resident.exists_bounds_after_refusal`: A lower bound that is there although
  the call that was to set it was refused.
-/

namespace BoundedSimplex

/-- Read both bounds of a variable. -/
def readBounds {σ α : Type} [BoundStore σ α] (v : Nat) : Exec σ (Interval α) := do
  let lower ← BoundStore.lower v
  let upper ← BoundStore.upper v
  pure ⟨lower, upper⟩

/-- A side that has a bound takes another one, and zero where there is none. A side
    without a bound stays so. -/
def overwritten (new old : Option Binary32) : Option Binary32 := old.map fun _ => new.getD 0

/-- The bounds after the first `n` values of a call were written, and no mask. A value that
    is written where there is no bound does not show. -/
def BoundEdit.halfway (n : Nat) (i : Interval Binary32) : BoundEdit Binary32 → Interval Binary32
  | .lower x => if 0 < n then { i with lower := overwritten x i.lower } else i
  | .upper x => if 0 < n then { i with upper := overwritten x i.upper } else i
  | .both x => ⟨if 0 < n then overwritten x.lower i.lower else i.lower,
      if 1 < n then overwritten x.upper i.upper else i.upper⟩

namespace Device

/-- A device that refuses nothing any more: the request it refuses was made already. After a
    refusal it is the state of every device of this kind. -/
def Quiet (d : Device) : Prop := ∀ x, d.refuse = some x → x.before < d.tally.count x.request

theorem Quiet.refusal? {d : Device} (h : d.Quiet) (r : Request) : d.refusal? r = none := by
  cases hrefusal : d.refusal? r with
  | none => rfl
  | some e => exact absurd (h _ (refusal?_eq_some_iff.mp hrefusal)) (Nat.lt_irrefl _)

theorem Quiet.looked {d : Device} (h : d.Quiet) : d.looked.Quiet := by
  intro x hrefuse
  have hcount := d.tally.count_add .fromDevice x.request
  have hk := h x hrefuse
  show x.before < (d.tally.add .fromDevice).count x.request
  rw [hcount]
  split
  · exact Nat.lt_succ_of_lt hk
  · exact hk

theorem quiet_calm (d : Device) : d.calm.Quiet := fun _ hrefuse => nomatch hrefuse

/-- A device refuses one request, so it refuses nothing after that one. -/
theorem quiet_of_refused {d : Device} {x : RefusedRequest} (hrefuse : d.refuse = some x)
    (hcount : d.tally.count x.request = x.before + 1) : d.Quiet := by
  intro y hrefused
  rw [hrefuse] at hrefused
  cases hrefused
  rw [hcount]
  exact Nat.lt_succ_self _

end Device

namespace Bounds.Resident

/-- The bound of one side that the words of a memory tell. -/
def bound (r : Resident) (m : Memory) (s : Part) (bit : UInt32) (v : Nat) : Option Binary32 :=
  if (m.word? (r.part .bounded).id v).getD 0 &&& bit = 0 then none
  else some ⟨(m.word? (r.part s).id v).getD 0⟩

/-- The bounds that the words of a memory tell. There is one reading of any words, so this
    is defined after a refusal as well. -/
def interval (r : Resident) (m : Memory) (v : Nat) : Interval Binary32 :=
  ⟨r.bound m .lower hasLower v, r.bound m .upper hasUpper v⟩

/-- What reading the bounds of a variable gives. -/
def told (r : Resident) (m : Memory) (v : Nat) : Except Error (Interval Binary32) :=
  if v < r.numVars then .ok (r.interval m v) else .error (.indexOutOfBounds v r.numVars)

variable {r : Resident} {m : Memory} {d : Device} {v : Nat} {e : BoundEdit Binary32}

/-- The buffers of a store that was made lie in the memory, each with a word for each
    variable. The device may refuse requests as long as it did not refuse one of these,
    since up to there it did what it would have done without any refusal. -/
theorem inMemory_of_allocate {numBasic numNonbasic : Nat} {j : Journal} {u : Traced Device}
    (hmade : allocate numBasic numNonbasic ⟨d, j⟩ = .ok r u) : r.InMemory u.state.host.memory := by
  have hcalm : allocate numBasic numNonbasic ⟨d.calm, j⟩ = .ok r (u.map Device.calm) :=
    ((Device.allocateBounds_passes numBasic numNonbasic ⟨d, j⟩ trivial).ok hmade).1
  rcases (allocate_mirrors (d := d.calm) rfl numBasic numNonbasic 0).result hcalm with ⟨c, hc⟩
  refine ⟨hc.length, fun s v hv => ?_, hc.holds.inj⟩
  have hlt : v < (c s).size := by
    have hle := hc.holds.length s
    rw [hc.length s] at hle
    exact Nat.lt_of_lt_of_le hv hle
  exact ⟨(c s)[v], Memory.word?_eq_some.mpr
    ⟨c s, hc.holds.words s, Array.getElem?_eq_some_iff.mpr ⟨hlt, rfl⟩⟩⟩

/-- A value that was written, as the mask lets it be read. -/
theorem InMemory.bound_written (h : r.InMemory m) (hv : v < r.numVars) {s : Part}
    (hs : s ≠ .bounded) (bit : UInt32) (x : Option Binary32) :
    r.bound (m.modifyWord (r.part s).id v fun _ => sideWord x) s bit v
      = overwritten x (r.bound m s bit v) := by
  rcases h.word s v hv with ⟨w, hw⟩
  unfold bound
  rw [(h.word?_modifyWord s .bounded v v _).trans (if_neg fun heq => hs heq.1),
    (h.word?_modifyWord s s v v _).trans (if_pos ⟨rfl, rfl⟩), hw]
  by_cases hbit : (m.word? (r.part .bounded).id v).getD 0 &&& bit = 0
  · rw [if_pos hbit, if_pos hbit]
    rfl
  · rw [if_neg hbit, if_neg hbit]
    rfl

/-- A bound that has another word than the one that was written. -/
theorem InMemory.bound_other (h : r.InMemory m) {s t : Part} (hs : s ≠ .bounded) (ht : s ≠ t)
    (bit : UInt32) (f : UInt32 → UInt32) :
    r.bound (m.modifyWord (r.part s).id v f) t bit v = r.bound m t bit v := by
  unfold bound
  rw [(h.word?_modifyWord s .bounded v v _).trans (if_neg fun heq => hs heq.1),
    (h.word?_modifyWord s t v v _).trans (if_neg fun heq => ht heq.1)]

/-- The words after the first changes of a call tell what its first writes make of the
    bounds. The mask is changed last, so up to there a written word counts only where there
    was a bound before. -/
theorem InMemory.interval_change (h : r.InMemory m) (hv : v < r.numVars) {n : Nat}
    (hn : n < e.changes.length) :
    r.interval (r.change v (e.changes.take n) m) v = e.halfway n (r.interval m v) := by
  -- An edit of one side has one write before the mask, and an edit of both has two. With no write
  -- there is nothing to say.
  cases e with
  | lower x =>
      rcases (show n = 0 ∨ n = 1 from by have : n < 2 := hn; omega) with rfl | rfl
      · rfl
      · exact congrArg₂ Interval.mk (h.bound_written hv (s := .lower) nofun hasLower x)
          (h.bound_other (s := .lower) (t := .upper) nofun nofun hasUpper _)
  | upper x =>
      rcases (show n = 0 ∨ n = 1 from by have : n < 2 := hn; omega) with rfl | rfl
      · rfl
      · exact congrArg₂ Interval.mk
          (h.bound_other (s := .upper) (t := .lower) nofun nofun hasLower _)
          (h.bound_written hv (s := .upper) nofun hasUpper x)
  | both i =>
      have hlower := h.modifyWord (r.part .lower).id v fun _ => sideWord i.lower
      rcases (show n = 0 ∨ n = 1 ∨ n = 2 from by have : n < 3 := hn; omega) with rfl | rfl | rfl
      · rfl
      · exact congrArg₂ Interval.mk (h.bound_written hv (s := .lower) nofun hasLower i.lower)
          (h.bound_other (s := .lower) (t := .upper) nofun nofun hasUpper _)
      · refine congrArg₂ Interval.mk ?_ ?_
        · exact (hlower.bound_other (s := .upper) (t := .lower) nofun nofun hasLower _).trans
            (h.bound_written hv (s := .lower) nofun hasLower i.lower)
        · refine (hlower.bound_written hv (s := .upper) nofun hasUpper i.upper).trans ?_
          exact congrArg (overwritten i.upper)
            (h.bound_other (s := .lower) (t := .upper) nofun nofun hasUpper _)

/-- The words of the other variables are as they were. -/
theorem interval_change_other {u : Nat} (hu : u ≠ v) (l : WordChanges) :
    r.interval (r.change v l m) u = r.interval m u := by
  have hword : ∀ s, (r.change v l m).word? (r.part s).id u = m.word? (r.part s).id u := by
    intro s
    induction l generalizing m with
    | nil => rfl
    | cons c l ih =>
        refine ih.trans ((Memory.word?_modifyWord ..).trans (if_neg ?_))
        exact fun heq => hu heq.2.symm
  simp only [interval, bound, hword]

/-- What is read after the first changes of a call. -/
theorem InMemory.told_change (h : r.InMemory m) (hv : v < r.numVars) {n : Nat}
    (hn : n < e.changes.length) (u : Nat) : r.told (r.change v (e.changes.take n) m) u
      = if u = v then (r.told m u).map (e.halfway n) else r.told m u := by
  unfold told
  by_cases hu : u = v
  · rw [hu, if_pos hv, if_pos rfl, if_pos hv, h.interval_change hv hn]
    rfl
  · rw [if_neg hu, interval_change_other hu]

/-- There is nothing to change in what is read of a variable that does not exist. -/
theorem told_outside (hv : r.numVars ≤ v) (m : Memory) (f : Interval Binary32 → Interval Binary32)
    (u : Nat) : (if u = v then (r.told m u).map f else r.told m u) = r.told m u := by
  split
  · rename_i hu
    rw [told, if_neg (by rw [hu]; exact Nat.not_lt_of_le hv)]
    rfl
  · rfl

/-! ### Reading -/

/-- A word is read from a device that refuses nothing any more. -/
theorem InMemory.get_gives (h : r.InMemory d.host.memory) (hd : d.Quiet) (hv : v < r.numVars)
    (s : Part) : ((r.part s).get v).Gives d fun w d' =>
      w = (d.host.memory.word? (r.part s).id v).getD 0 ∧ d'.Quiet ∧ d'.host = d.host := by
  intro j
  rcases h.word s v hv with ⟨w, hw⟩
  refine ⟨w, d.looked, j, ?_, by rw [hw, Option.getD_some], hd.looked, rfl⟩
  rw [Buffer.get_eq (h.lt_length hv s) hw j, hd.refusal? .fromDevice]

/-- One bound is read as the words tell it. -/
theorem InMemory.readSide_gives (h : r.InMemory d.host.memory) (hd : d.Quiet)
    (hv : v < r.numVars) (s : Part) (bit : UInt32) :
    (r.readSide v bit (r.part s)).Gives d fun x d' =>
      x = r.bound d.host.memory s bit v ∧ d'.Quiet ∧ d'.host = d.host := by
  unfold readSide bound
  have hcheck : (r.check v).Yields d () d := Exec.Yields.check (if_pos hv)
  refine hcheck.gives ((h.get_gives hd hv .bounded).bind ?_)
  rintro mask d₁ ⟨rfl, hd₁, hhost⟩
  -- The mask says whether there is a bound. Only if there is one is its word read.
  by_cases hbit : (d.host.memory.word? (r.part .bounded).id v).getD 0 &&& bit = 0
  · rw [if_pos hbit, if_pos hbit]
    exact Exec.Gives.pure ⟨rfl, hd₁, hhost⟩
  · rw [if_neg hbit, if_neg hbit]
    rw [← hhost] at h ⊢
    refine (h.get_gives hd₁ hv s).bind ?_
    rintro w d₂ ⟨rfl, hd₂, hhost₂⟩
    exact Exec.Gives.pure ⟨rfl, hd₂, hhost₂⟩

/-- Both bounds are read as the words tell them, one after the other. Nothing changes in
    between, since reading changes no word. -/
theorem readBounds_replies {a : Attached Resident} (h : a.handle.InMemory a.device.host.memory)
    (ha : a.device.Quiet) (v : Nat) :
    (readBounds v).Replies a (a.handle.told a.device.host.memory v) fun _ => True := by
  unfold readBounds told
  by_cases hv : v < a.handle.numVars
  · rw [if_pos hv]
    -- Either side can be read from any state whose device holds the same words, and reading
    -- leaves such a state.
    have hside : ∀ (d : Device), d.Quiet → d.host = a.device.host → ∀ s bit,
        (Attached.onDevice fun r : Resident => r.readSide v bit (r.part s)).Gives
          ⟨a.handle, d⟩ fun x b => x = a.handle.bound a.device.host.memory s bit v ∧
            b.handle = a.handle ∧ b.device.Quiet ∧ b.device.host = a.device.host := by
      intro d hd hhost s bit
      rw [← hhost] at h ⊢
      refine Exec.Yields.view.gives (Exec.Gives.focus ?_)
      refine (h.readSide_gives hd hv s bit).mono ?_
      rintro x d' ⟨hx, hd', hhost'⟩
      exact ⟨hx, rfl, hd', hhost'⟩
    refine Exec.Gives.bind (hside a.device ha rfl .lower hasLower) ?_
    rintro lower ⟨_, d₁⟩ ⟨rfl, rfl, hd₁, hhost₁⟩
    refine Exec.Gives.bind (hside d₁ hd₁ hhost₁ .upper hasUpper) ?_
    rintro upper b ⟨rfl, -⟩
    exact Exec.Gives.pure ⟨rfl, trivial⟩
  · rw [if_neg hv]
    have hlower : (Attached.onDevice fun r : Resident => r.readSide v hasLower r.lower).Stops a
        (.error (.indexOutOfBounds v a.handle.numVars)) fun _ => True :=
      Exec.Yields.view.stops (Exec.Stops.focus ((Exec.Stops.check (if_neg hv) trivial).bind))
    exact Exec.Stops.bind hlower

end Bounds.Resident

/-! ### After a refusal -/

namespace Attached

variable {η α : Type}

/-- The same on a device that refuses nothing. -/
def calm (a : Attached η) : Attached η := { a with device := a.device.calm }

/-- How an operation of the device ends is how it ends there. -/
theorem onDevice_error {act : η → Exec Device α} {a : Attached η} {j : Journal} {stop : Stop}
    {t : Traced (Attached η)} (h : onDevice act ⟨a, j⟩ = .error stop t) :
    ∃ u : Traced Device, act a.handle ⟨a.device, j⟩ = .error stop u ∧
      t.state = ⟨a.handle, u.state⟩ := by
  cases hact : act a.handle ⟨a.device, j⟩ with
  | ok x u =>
      have hrun : onDevice act ⟨a, j⟩ = _ :=
        (Exec.bind_ok rfl).trans (Exec.focus_ok (t := ⟨a, j⟩) hact)
      rw [hrun] at h
      cases h
  | error e u =>
      have hrun : onDevice act ⟨a, j⟩ = _ :=
        (Exec.bind_ok rfl).trans (Exec.focus_error (t := ⟨a, j⟩) hact)
      rw [hrun] at h
      cases h
      exact ⟨u, rfl, rfl⟩

end Attached

namespace Bounds.Resident

/-- A call that stops has written its first values and no mask. What can be read
    afterwards are these values where there is a bound, and otherwise what could be
    read before. -/
theorem bounds_after_refusal {a : Attached Resident} (h : a.handle.InMemory a.device.host.memory)
    (e : BoundEdit Binary32) (v : Nat) {j : Journal} {stop : Stop} {t : Traced (Attached Resident)}
    (hrun : e.inStore v ⟨a, j⟩ = .error stop t) :
    t.state.handle = a.handle ∧ a.handle.InMemory t.state.device.host.memory ∧
      ∃ n < e.changes.length,
        (stop = .error (.indexOutOfBounds v a.handle.numVars) ∧ n = 0 ∨
          (∃ k error, a.device.refuse = some ⟨.fromDevice, k, error⟩ ∧
            stop = .error error) ∧ n = 0 ∨
          ∃ error, a.device.refuse = some ⟨.toDevice, a.device.tally.toDevice + n, error⟩ ∧
            stop = .error error) ∧
        ∀ u, ∃ x : Except Error (Interval Binary32),
          (readBounds u).Replies a.calm x (fun _ => True) ∧
          (readBounds u).Replies t.state.calm (if u = v then x.map (e.halfway n) else x)
            (fun _ => True) ∧
          (stop ≠ .error (.indexOutOfBounds v a.handle.numVars) →
            (readBounds u).Replies t.state (if u = v then x.map (e.halfway n) else x)
              fun _ => True) := by
  rw [e.inStore_resident] at hrun
  rcases Attached.onDevice_error hrun with ⟨u, hcall, hstate⟩
  have hcomes := BoundEdit.onDevice_comes h e v j
  rw [hcall] at hcomes
  have hbefore := fun u => readBounds_replies (a := a.calm) h a.device.quiet_calm u
  -- Either the variable does not exist and nothing was written, or a request was refused after
  -- `n` of the writes.
  cases hcomes with
  | outside hv =>
      have hsame : t.state = a := hstate
      refine ⟨by rw [hsame], by rwa [hsame], 0, ?_, .inl ⟨rfl, rfl⟩, fun u => ?_⟩
      · cases e <;> exact Nat.succ_pos _
      refine ⟨a.handle.told a.device.host.memory u, hbefore u, ?_, fun hne => absurd rfl hne⟩
      rw [hsame, told_outside hv]
      exact hbefore u
  | @refused req k n error d' hv hrefuse hn hreq hhost hsame hcount =>
      have hmemory : d'.host.memory = a.handle.change v (e.changes.take n) a.device.host.memory :=
        congrArg HostDevice.memory hhost
      have hin : a.handle.InMemory d'.host.memory := by
        rw [hmemory]
        exact h.change v _
      -- The request that was to be refused has been refused, so the device serves whatever comes
      -- next.
      have hquiet : d'.Quiet := Device.quiet_of_refused (hsame.trans hrefuse) hcount
      have htold := fun u => h.told_change hv hn u
      rw [hstate]
      refine ⟨rfl, hin, n, hn, ?_, fun u => ⟨a.handle.told a.device.host.memory u, hbefore u, ?_⟩⟩
      · rcases hreq with ⟨rfl, rfl⟩ | ⟨rfl, rfl⟩
        · exact .inr (.inl ⟨⟨k, error, hrefuse, rfl⟩, rfl⟩)
        · exact .inr (.inr ⟨error, hrefuse, rfl⟩)
      · rw [← htold u, ← hmemory]
        exact ⟨readBounds_replies (a := ⟨a.handle, d'.calm⟩) hin d'.quiet_calm u,
          fun _ => readBounds_replies (a := ⟨a.handle, d'⟩) hin hquiet u⟩

/-- A device that refuses the fourth transfer to it. Two are made with a store. -/
def refusingFourth : Device :=
  { Device.ofLimits ⟨4, 1⟩ with refuse := some (.injected .toDevice 3) }

/-- A call that is to set both bounds. -/
def fiveToSeven : BoundEdit Binary32 := .both ⟨some ⟨0x40a00000⟩, some ⟨0x40e00000⟩⟩

/-- On that device the call gives up when one value is written, and what is read
    afterwards is what one value makes of the bounds. -/
theorem bounds_after_refusal_lower : ∃ (a : Attached Resident) (stop : Stop)
    (t : Traced (Attached Resident)),
    a.handle.InMemory a.device.host.memory ∧ fiveToSeven.inStore 0 ⟨a, #[]⟩ = .error stop t ∧
      a.handle.InMemory t.state.device.host.memory ∧
      ∀ u, ∃ x : Except Error (Interval Binary32),
        (readBounds u).Replies a.calm x (fun _ => True) ∧
        (readBounds u).Replies t.state (if u = 0 then x.map (fiveToSeven.halfway 1) else x)
          fun _ => True := by
  have hmake : Exec.endsWith (Resident.allocate 1 1 ⟨refusingFourth, #[]⟩) (fun r u =>
      decide (u.state.tally.toDevice = 2 ∧ u.state.refuse = some (.injected .toDevice 3)) &&
        Exec.stopsWith (fiveToSeven.inStore 0 (⟨⟨r, u.state⟩, #[]⟩ : Traced (Attached Resident)))
          fun stop _ => decide (stop = .error (.injected "to_device" 3))) = true := by
    decide +kernel
  rcases Exec.exists_of_endsWith hmake with ⟨r, u, hmade, htests⟩
  rcases Bool.and_eq_true_iff.mp htests with ⟨hstart, hcall⟩
  rcases of_decide_eq_true hstart with ⟨htally, hrefuse⟩
  have hin := inMemory_of_allocate hmade
  rcases Exec.exists_of_stopsWith hcall with ⟨stop, t, hrun, hstop⟩
  have hrefused := of_decide_eq_true hstop
  obtain ⟨-, hafter, n, -, hwhere, hread⟩ :=
    bounds_after_refusal (a := ⟨r, u.state⟩) hin fiveToSeven 0 hrun
  -- Two uploads were made before the call and the fourth of all is refused, so one of the writes
  -- was done.
  have hn : n = 1 := by
    rcases hwhere with ⟨houtside, -⟩ | ⟨⟨k, error, hlooked, -⟩, -⟩ | ⟨error, hwritten, -⟩
    · cases hrefused.symm.trans houtside
    · cases hrefuse.symm.trans hlooked
    · have hbefore : 3 = u.state.tally.toDevice + n :=
        congrArg RefusedRequest.before (Option.some.inj (hrefuse.symm.trans hwritten))
      omega
  refine ⟨⟨r, u.state⟩, stop, t, hin, hrun, hafter, fun w => ?_⟩
  rcases hread w with ⟨x, hbefore, -, hthere⟩
  refine ⟨x, hbefore, ?_⟩
  rw [← hn]
  exact hthere (by rw [hrefused]; exact nofun)

/-- A variable of the store that is made on that device has a lower bound of five
    after the call was refused. It had a lower bound of zero before. -/
theorem exists_bounds_after_refusal : ¬ ∀ (d : Device) (r : Resident) (u : Traced Device),
    Resident.allocate 1 1 ⟨d, #[]⟩ = .ok r u →
    ∀ (e : BoundEdit Binary32) (v : Nat) (stop : Stop) (t : Traced (Attached Resident)),
      e.inStore v ⟨⟨r, u.state⟩, #[]⟩ = .error stop t →
      ∀ (w : Nat) (x : Interval Binary32) (t' : Traced (Attached Resident)),
        readBounds w ⟨⟨r, u.state⟩, #[]⟩ = .ok x t' →
        ∃ t'', readBounds w t = .ok x t'' := by
  intro hkept
  have hmake : Exec.endsWith (Resident.allocate 1 1 ⟨refusingFourth, #[]⟩) (fun r u =>
      Exec.endsWith (readBounds 0 (⟨⟨r, u.state⟩, #[]⟩ : Traced (Attached Resident))) (fun x _ =>
          decide (x = ⟨some ⟨0⟩, none⟩)) &&
        Exec.stopsWith (fiveToSeven.inStore 0 (⟨⟨r, u.state⟩, #[]⟩ : Traced (Attached Resident)))
          fun _ t => Exec.endsWith (readBounds 0 t) fun x _ =>
            decide (x = ⟨some ⟨0x40a00000⟩, none⟩)) = true := by decide +kernel
  rcases Exec.exists_of_endsWith hmake with ⟨r, u, hmade, htests⟩
  rcases Bool.and_eq_true_iff.mp htests with ⟨hread, hcall⟩
  rcases Exec.exists_of_endsWith hread with ⟨x, t', hbefore, hx⟩
  rcases Exec.exists_of_stopsWith hcall with ⟨stop, t, hstop, hread'⟩
  rcases Exec.exists_of_endsWith hread' with ⟨x', t₁, hafter, hx'⟩
  rcases hkept refusingFourth r u hmade fiveToSeven 0 stop t hstop 0 x t' hbefore with ⟨t₂, hsame⟩
  rw [hafter] at hsame
  cases hsame
  have hbounds := (of_decide_eq_true hx).symm.trans (of_decide_eq_true hx')
  exact absurd hbounds (by decide)

end Bounds.Resident

end BoundedSimplex
