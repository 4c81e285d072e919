import ByteBasic.Proofs.Machine.Budgets
import ByteBasic.Proofs.Machine.Safety

/-!
# Runs come to an end

A run is a loop that is left only when a step reports a stop and there is a reason on record. Each step
before that uses up a cycle of the budget, so there are at most as many as there are cycles left, and one
more, in which the machine stops. From then on there is nothing that a step or a run could change.

**Theorem (`stopping_is_final`).** From every state that can be reached, a run ends within that many steps
and gives the reason that the first step to report a stop leaves on record. A halted machine answers every
further step and run with that stop and that reason, stays in its state, and calls no device.

That no device is called is said of a machine in front of `Watched` devices. They do what the devices in
them do (`Processor.unwatched_steps`) and count the calls, two for every instruction
(`Processor.calls_steps`).
-/

namespace ByteBasic

/-- A device with a count of the calls that it has received. -/
structure Watched (δ : Type) where
  device : δ
  calls : Nat

variable {δ : Type}

/-- A call of the device, counted. -/
def Watched.calling (hook : δ → UInt8 → δ × UInt8) (watched : Watched δ) (port : UInt8) :
    Watched δ × UInt8 :=
  let (device, port) := hook watched.device port
  (⟨device, watched.calls + 1⟩, port)

instance [Device δ] : Device (Watched δ) where
  beforeStep := Watched.calling Device.beforeStep
  afterStep := Watched.calling Device.afterStep
  clear watched := ⟨Device.clear watched.device, watched.calls + 1⟩

namespace Processor

/-! ## Watched devices -/

/-- The slot with a watch put on its device. -/
def watch (slot : Slot δ) : Slot (Watched δ) :=
  ⟨slot.address, ⟨slot.device, 0⟩⟩

def unwatch (slot : Slot (Watched δ)) : Slot δ :=
  ⟨slot.address, slot.device.device⟩

def watched (processor : Processor δ) : Processor (Watched δ) :=
  { processor with slots := processor.slots.map watch }

def unwatched (processor : Processor (Watched δ)) : Processor δ :=
  { processor with slots := processor.slots.map unwatch }

/-- How often each device has been called. -/
def calls (slots : List (Slot (Watched δ))) : List Nat :=
  slots.map fun slot => slot.device.calls

@[simp] theorem unwatched_watched (processor : Processor δ) :
    processor.watched.unwatched = processor := by
  simp [watched, unwatched, watch, unwatch, Function.comp_def]

theorem calls_watched (processor : Processor δ) :
    calls processor.watched.slots = processor.slots.map fun _ => 0 := by
  simp [watched, calls, watch, Function.comp_def]

section Strobe

variable (hook : δ → UInt8 → δ × UInt8) (slots : List (Slot (Watched δ))) (ports : Bank 256)

/-- Watched devices leave the ports as the devices in them do. -/
theorem strobe_calling : strobe hook (slots.map unwatch) ports =
    ((strobe (Watched.calling hook) slots ports).1.map unwatch,
      (strobe (Watched.calling hook) slots ports).2) := by
  induction slots generalizing ports with
  | nil => rfl
  | cons slot slots ih => simp [strobe, Watched.calling, unwatch, ih]

/-- A strobe calls every device once. -/
theorem calls_strobe : calls (strobe (Watched.calling hook) slots ports).1 =
    (calls slots).map (· + 1) := by
  induction slots generalizing ports with
  | nil => rfl
  | cons slot slots ih => simp [strobe, Watched.calling, calls] at ih ⊢; exact ih _

end Strobe

variable [Device δ]

theorem unwatched_cycle (processor : Processor (Watched δ)) :
    processor.unwatched.cycle = processor.cycle.unwatched := by
  simp only [cycle, unwatched, strobe_calling]
  rfl

theorem unwatched_step (processor : Processor (Watched δ)) :
    processor.unwatched.step = processor.step.unwatched := by
  have hstatus : processor.unwatched.status = processor.status := rfl
  unfold step
  rw [unwatched_cycle, hstatus]
  cases processor.status with
  | halted reason => rfl
  | ready =>
    simp only [apply_ite unwatched]
    rfl

/-- Watching a machine changes nothing about it. -/
theorem unwatched_steps (count : Nat) (processor : Processor (Watched δ)) :
    steps count processor.unwatched = (steps count processor).unwatched := by
  induction count generalizing processor with
  | zero => rfl
  | succ count ih => rw [steps, unwatched_step, ih, steps]

theorem instructions_unwatched (count : Nat) (processor : Processor (Watched δ)) :
    instructions count processor.unwatched = instructions count processor := by
  induction count generalizing processor with
  | zero => rfl
  | succ count ih =>
    rw [instructions, unwatched_step, ih]
    rfl

/-- Every device is called twice for each instruction that is executed, and otherwise not at all. -/
theorem calls_steps (count : Nat) (processor : Processor (Watched δ)) :
    calls (steps count processor).slots =
      (calls processor.slots).map (· + 2 * (instructions count processor).length) := by
  induction count generalizing processor with
  | zero => simp [steps, instructions]
  | succ count ih =>
    rw [steps, ih, instructions]
    cases processor.stepped with
    | halted _ _ executed step | atTop _ _ executed step | spent _ _ _ executed step =>
      rw [step, executed]
      rfl
    | executes instruction _ _ _ _ executed step =>
      have hcalls : calls (processor.executing instruction).slots =
          (calls processor.slots).map (· + 2) := by
        rw [slots_executing]
        show calls (strobe (Watched.calling _) (strobe (Watched.calling _) _ _).1 _).1 = _
        rw [calls_strobe, calls_strobe, List.map_map]
        rfl
      rw [step, executed, hcalls, List.map_map]
      refine List.map_congr_left fun calls _ => ?_
      simp only [Function.comp_apply, Option.toList_some, List.cons_append, List.nil_append,
        List.length_cons]
      omega

/-! ## The end of a run -/

/-- A run ends with the first step that reports a stop, which the budget bounds. -/
theorem run_ends (processor : Processor δ) :
    ∃ count ≤ processor.config.maxCycles - processor.cycles,
      (∀ step < count, (steps step processor).progress = .goesOn) ∧
      (steps count processor).progress = .stopped ∧
      processor.run.2 = steps (count + 1) processor := by
  induction processor using run.induct with
  | case1 processor reason hstatus =>
    have hstep := step_of_halted hstatus
    refine ⟨0, Nat.zero_le _, fun _ h => absurd h (Nat.not_lt_zero _), ?_, ?_⟩
    · rw [steps, progress, hstep, hstatus]
    · rw [run_of_halted hstatus, steps, hstep, steps]
  | case2 processor hstatus _ ih =>
    rw [run_of_ready hstatus]
    cases hnext : processor.step.status with
    | halted reason =>
      refine ⟨0, Nat.zero_le _, fun _ h => absurd h (Nat.not_lt_zero _), ?_, ?_⟩
      · rw [steps, progress, hnext]
      · rw [run_of_halted hnext, steps, steps]
    | ready =>
      obtain ⟨count, hcount, hgoes, hstops, hrun⟩ := ih
      have hlt := remaining_step_lt processor hstatus
      have hconfig : processor.step.config = processor.config := config_steps 1 processor
      simp only [remaining, hnext, hstatus, hconfig] at hlt
      rw [hconfig] at hcount
      refine ⟨count + 1, by omega, fun step hstep => ?_, hstops, hrun⟩
      cases step with
      | zero => rw [steps, progress, hnext]
      | succ step => exact hgoes step (Nat.lt_of_succ_lt_succ hstep)

/-! ## After the end -/

end Processor

namespace Checked

open Processor (Progress)

/-- What can be asked of a machine again and again. -/
inductive Call
  | step
  | run

/-- What a call gives back. -/
inductive Answer
  | stepped (progress : Progress)
  | ran (reason : StopReason)
  deriving DecidableEq

/-- What a machine that has stopped for a reason is expected to give back. -/
def Call.stopped (reason : StopReason) : Call → Answer
  | .step => .stepped .stopped
  | .run => .ran reason

variable [Device δ]

/-- A call carried out. A run may take a step for every cycle that is left, and one more. -/
def call? (machine : Checked δ) : Call → Option (Answer × Checked δ)
  | .step => do
    let (progress, after) ← machine.step?
    return (.stepped progress, after)
  | .run => do
    let (reason, after) ← machine.run? (machine.config.maxCycles - machine.cycles + 1)
    return (.ran reason, after)

def callAll? : List Call → Checked δ → Option (List Answer × Checked δ)
  | [], machine => some ([], machine)
  | call :: calls, machine => do
    let (answer, after) ← machine.call? call
    let (answers, after) ← callAll? calls after
    return (answer :: answers, after)

end Checked

namespace Processor

open Checked (Call)

variable [Device δ] {processor : Processor δ} {reason : StopReason}

omit [Device δ] in
theorem remaining_le (processor : Processor δ) :
    processor.remaining ≤ processor.config.maxCycles - processor.cycles + 1 := by
  unfold remaining
  split <;> omega

theorem call?_of_halted (h : processor.status = .halted reason)
    (hbudget : processor.config.maxCycles < UInt64.size) (call : Call) :
    processor.checked.call? call = some (call.stopped reason, processor.checked) := by
  cases call with
  | step =>
    rw [Checked.call?, step?_checked hbudget, progress, step_of_halted h, h]
    rfl
  | run =>
    have hrun := run?_checked hbudget processor.remaining_le (Nat.succ_pos _)
    rw [run_of_halted h] at hrun
    rw [Checked.call?, show processor.checked.config = processor.config from rfl,
      show processor.checked.cycles = processor.cycles from rfl, hrun]
    rfl

/-- A halted machine answers every call with its stop, and stays as it is. -/
theorem callAll?_of_halted (h : processor.status = .halted reason)
    (hbudget : processor.config.maxCycles < UInt64.size) (calls : List Call) :
    processor.checked.callAll? calls =
      some (calls.map (Call.stopped reason), processor.checked) := by
  induction calls with
  | nil => rfl
  | cons call calls ih =>
    rw [Checked.callAll?, call?_of_halted h hbudget]
    simp [ih]

/-- **Stopping is final.** From every state that a machine can be brought to, with any settings and any
devices, a run ends within as many steps as there are cycles left, and one more. It ends with the first
step that reports a stop, and gives the reason which that step leaves on record. A halted machine has a
reason on record. It answers any further steps and runs with its stop and that reason, and is then in the
very same state. The same machine with its devices watched, which counts two calls of each for every
instruction, shows that none of them is called. -/
theorem stopping_is_final (maxCycles : UInt64) (rotate : RotateMode) (requests : List (Request δ)) :
    let reached := serveAll (new ⟨maxCycles.toNat, rotate⟩ : Processor δ) requests
    let left := maxCycles.toNat - reached.cycles
    reached.cycles ≤ maxCycles.toNat ∧
    reached.checked.run? (left + 1) = some (reached.run.1, reached.run.2.checked) ∧
    (∃ count ≤ left, (∀ step < count, (steps step reached).progress = .goesOn) ∧
      (steps count reached).progress = .stopped ∧ reached.run.2 = steps (count + 1) reached ∧
      reached.run.2.checked.halted = true ∧ reached.run.2.checked.reason = some reached.run.1) ∧
    (∀ count, (steps count reached.watched).unwatched = steps count reached ∧
      calls (steps count reached.watched).slots =
        reached.slots.map fun _ => 2 * (instructions count reached).length) ∧
    (reached.checked.halted = true → ∃ reason, reached.checked.reason = some reason ∧
      ∀ calls : List Call,
        reached.checked.callAll? calls = some (calls.map (Call.stopped reason), reached.checked) ∧
        reached.watched.checked.callAll? calls =
          some (calls.map (Call.stopped reason), reached.watched.checked)) := by
  intro reached left
  have hconfig : reached.config = ⟨maxCycles.toNat, rotate⟩ := config_serveAll _ requests
  have hleft : left = reached.config.maxCycles - reached.cycles := by rw [hconfig]
  have hbudget : reached.config.maxCycles < UInt64.size := by
    rw [hconfig]
    exact maxCycles.toNat_lt_size
  have hsafe : reached.checked.Safe := (Checked.Safe.new _).serveAll requests
  refine ⟨?_, ?_, ?_, fun count => ⟨?_, ?_⟩, fun hhalted => ?_⟩
  · have hcycles : reached.cycles ≤ reached.config.maxCycles := hsafe.cycles_le
    rw [hconfig] at hcycles
    exact hcycles
  · rw [hleft]
    exact run?_checked hbudget reached.remaining_le (Nat.succ_pos _)
  · obtain ⟨count, hcount, hgoes, hstops, hrun⟩ := reached.run_ends
    have hreason := reached.stopReason?_run
    exact ⟨count, hleft ▸ hcount, hgoes, hstops, hrun,
      (isHalted_iff _).2 ⟨_, hreason⟩, hreason⟩
  · rw [← unwatched_steps, unwatched_watched]
  · rw [calls_steps, calls_watched, List.map_map, ← instructions_unwatched, unwatched_watched]
    exact List.map_congr_left fun _ _ => Nat.zero_add _
  · obtain ⟨reason, hreason⟩ := reached.isHalted_iff.1 hhalted
    have hstatus := stopReason?_eq_some.1 hreason
    -- Watching changes no status, so the watched machine has stopped for the same reason.
    have hwatched : reached.watched.status = .halted reason := hstatus
    exact ⟨reason, hreason, fun calls => ⟨callAll?_of_halted hstatus hbudget calls,
      callAll?_of_halted hwatched hbudget calls⟩⟩

end Processor

end ByteBasic
