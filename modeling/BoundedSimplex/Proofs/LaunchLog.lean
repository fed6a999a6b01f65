import BoundedSimplex.Proofs.Keeping
import BoundedSimplex.Proofs.Wiring

/-!
# The Log of Launches

Which kernels a device has run, in the order of the launches.

A gateway records every launch that it passes on, and nothing else: to bind an
argument or to move words leaves no trace in the record. So how often an
operation launches a kernel can be read off two records, that before and that
after it. Here the requests are gone through one by one, and an engine that
launches one of its kernels adds the name of that kernel.

## Main definitions

* `Device.launched`: The kernels that were launched.
* `Device.Silent`: An operation that launches nothing.

## Theorems

* `Device.setArg_silent`, `Device.read_silent`, `Device.write_silent`: The other
  requests.
* `Parallel.Sees.run_launched`: A launch.
-/

namespace BoundedSimplex

open Exec

namespace Device

/-- The names of the kernels that were launched, the latest one first. -/
def launched (d : Device) : List String := d.launches.map (·.entry)

/-- The operation launches nothing, whether it ends or stops. -/
def Silent {α : Type} (act : Exec Device α) : Prop :=
  ∀ l, act.Maintains (fun d => d.launched = l) fun _ d => d.launched = l

variable {α β : Type}

theorem Silent.bind {act : Exec Device α} {f : α → Exec Device β} (h : Silent act)
    (hf : ∀ a, Silent (f a)) : Silent (act >>= f) :=
  fun l => (h l).bind fun a => hf a l

theorem check_silent (x : Except Error α) : Silent (Exec.check x) := by
  intro l d hd j
  cases x <;> exact hd

theorem pure_silent (a : α) : Silent (pure a) := fun _ => .pure a

theorem ask_silent (r : Request) : Silent (ask r) := by
  intro l d hd
  refine Exec.Yields.state.ends (Exec.Yields.update.ends ?_)
  split
  · exact .fail hd
  · exact .pure hd

/-- The device behind the gateway does not know of the record. -/
theorem onHost_silent (act : Exec HostDevice α) : Silent (onHost act) :=
  fun _ => .focus fun d hd j => by cases act ⟨d.host, j⟩ <;> exact hd

theorem setArg_silent (kernel index : Nat) (a : Arg) : Silent (setArg kernel index a) :=
  (ask_silent _).bind fun _ => onHost_silent _

theorem setArgs_silent (kernel : Nat) (args : List (Nat × Arg)) : Silent (setArgs kernel args) := by
  induction args with
  | nil => exact pure_silent ()
  | cons q rest ih => exact (setArg_silent kernel q.1 q.2).bind fun _ => ih

theorem read_silent (id offset count : Nat) : Silent (read id offset count) :=
  (ask_silent _).bind fun _ => (onHost_silent _).bind fun data =>
    .bind (fun _ => .update fun _ hd => hd) fun _ => pure_silent data

theorem write_silent (id offset : Nat) (data : Words) : Silent (write id offset data) :=
  (ask_silent _).bind fun _ => (onHost_silent _).bind fun _ _ => .update fun _ hd => hd

end Device

theorem Buffer.get_silent (b : Buffer) (i : Nat) : Device.Silent (b.get i) :=
  .bind (.bind (Device.check_silent _) fun _ => Device.read_silent _ _ _) fun _ =>
    Device.pure_silent _

theorem Buffer.write_silent (b : Buffer) (start : Nat) (data : Words) :
    Device.Silent (b.write start data) :=
  .bind (Device.check_silent _) fun _ => Device.write_silent _ _ _

namespace Parallel

variable {p : Parallel} {d : Device} {a : Wiring} {c : Contents}

/-- A launch is recorded with the name of its kernel, even if the device refuses it. It is
    the request that is recorded and not what comes of it. -/
theorem Sees.run_launched (h : p.Sees d a c) (e : Entry) (size : LaunchSize) :
    (p.run e size).Ends d (fun _ d' => d'.launched = e.name :: d.launched)
      fun _ d' => d'.launched = e.name :: d.launched := by
  refine Exec.Yields.emit.ends ?_
  -- The name is written down after the gateway was asked and before the device was, so it is on
  -- record in both outcomes of the launch.
  have hask := ((Device.ask_silent .launch) _ d rfl).gives (h.serves.ask_gives .launch)
  refine hask.ends.bind ?_
  rintro _ d₁ ⟨hserves, hlog⟩
  have hrecord : (d₁.recordOf (p.kernel e) size).entry = e.name := by
    rw [Device.recordOf, hserves.host, h.kernel e]
    rfl
  refine Exec.Yields.update.ends ?_
  refine Exec.Ends.mono (Device.onHost_silent _ _ _ rfl) (fun _ d' hd' => ?_) fun _ d' hd' => ?_
  all_goals
    rw [hd', ← hlog, ← hrecord]
    rfl

end Parallel

end BoundedSimplex
