import ByteBasic.Proofs.Machine.Cycles

/-!
# The cycle budget

The budget is looked at between two instructions and nowhere else, so all that it decides is where a run
is cut off.

**Theorem (`budget_only_truncates`).** A run that stops for another reason than the budget is the same
under every larger budget. A run that the budget stops has executed as many instructions as there were
cycles left, and is then where the run under the larger budget is after as many steps.

As long as the smaller budget does not stop the machine, a step under either is the same
(`Processor.step_budgeted`). The top of memory comes before the budget, and no instruction gives the
budget as its reason to stop (`Core.execute_ne_cycleLimit`), so nothing else depends on it.
-/

namespace ByteBasic

namespace Core

/-- Only a full stack stops a machine that writes a side. -/
theorem writeSide_ne_cycleLimit (core : Core) (side : Side) (value : UInt8) :
    (core.writeSide side value).2 ≠ some .cycleLimit := by
  intro h
  rcases side with register | special
  · cases h
  · cases special with
    | programCounter | exitCode => cases h
    | stack =>
      simp only [writeSide] at h
      split at h <;> cases h

theorem execute_ne_cycleLimit (mode : RotateMode) (instruction : Instruction) (core : Core) :
    (execute mode instruction core).2 ≠ some .cycleLimit := by
  intro h
  cases instruction with
  | move source dest => exact writeSide_ne_cycleLimit _ dest _ h
  | alu op d a b =>
    simp only [execute] at h
    split at h <;> cases h
  | jump test r target =>
    simp only [execute] at h
    split at h <;> cases h
  | _ => cases h

end Core

namespace Processor

variable {δ : Type}

/-- The same processor with another cycle budget. -/
def budgeted (processor : Processor δ) (budget : Nat) : Processor δ :=
  { processor with config := { processor.config with maxCycles := budget } }

variable [Device δ]

def instructions : Nat → Processor δ → List Instruction
  | 0, _ => []
  | count + 1, processor => processor.executed?.toList ++ instructions count processor.step

def runInstructions (processor : Processor δ) : List Instruction :=
  match h : processor.status with
  | .halted _ => []
  | .ready =>
    have := remaining_step_lt processor h
    processor.executed?.toList ++ runInstructions processor.step
termination_by processor.remaining

theorem runInstructions_of_halted {processor : Processor δ} {reason : StopReason}
    (h : processor.status = .halted reason) : processor.runInstructions = [] := by
  rw [runInstructions]
  split <;> simp_all

theorem runInstructions_of_ready {processor : Processor δ} (h : processor.status = .ready) :
    processor.runInstructions = processor.executed?.toList ++ processor.step.runInstructions := by
  rw [runInstructions]
  split
  · simp_all
  · rfl

/-- A step that executes an instruction is not one that the budget stops. -/
theorem status_step_ne_cycleLimit {processor : Processor δ} {instruction : Instruction}
    (h : processor.executed? = some instruction) :
    processor.step.status ≠ .halted .cycleLimit := by
  rw [(step_of_executed? h).2, status_executing]
  have hreason := Core.execute_ne_cycleLimit processor.config.rotate instruction processor.poised
  intro hstatus
  cases hstop : (Core.execute processor.config.rotate instruction processor.poised).2 with
  | none =>
    rw [hstop] at hstatus
    cases hstatus
  | some reason =>
    rw [hstop] at hstatus
    cases hstatus
    exact hreason hstop

/-- A step that the budget does not stop is the same under a larger one, and executes the same. -/
theorem step_budgeted {processor : Processor δ} {budget : Nat}
    (hbudget : processor.config.maxCycles ≤ budget)
    (hstep : processor.step.status ≠ .halted .cycleLimit) :
    (processor.budgeted budget).step = processor.step.budgeted budget ∧
      (processor.budgeted budget).executed? = processor.executed? := by
  cases processor.stepped with
  | halted reason status executed step =>
    have hlarger : (processor.budgeted budget).status = .halted reason := status
    rw [step, step_of_halted hlarger, executed]
    exact ⟨rfl, by simp [executed?, hlarger]⟩
  | atTop ready hpc executed step =>
    have hlarger : (processor.budgeted budget).status = .ready := ready
    have htop : (processor.budgeted budget).core.pc ≥ codeLimit := hpc
    rw [step, executed]
    exact ⟨by simp [Processor.step, hlarger, htop]; rfl, by simp [executed?, Nat.not_lt.2 htop]⟩
  | spent _ _ _ _ step =>
    rw [step] at hstep
    exact absurd rfl hstep
  | executes instruction ready hpc hcycles _ executed step =>
    have hroom : processor.cycles < budget := Nat.lt_of_lt_of_le hcycles hbudget
    have hlarger : (processor.budgeted budget).executed? = some instruction :=
      (if_pos ⟨ready, hpc, hroom⟩).trans ((if_pos ⟨ready, hpc, hcycles⟩).symm.trans executed)
    rw [(step_of_executed? hlarger).2, step, hlarger, executed]
    exact ⟨rfl, rfl⟩

/-- A run that the budget does not stop is the same under a larger one. -/
theorem run_budgeted {processor : Processor δ} {budget : Nat}
    (hbudget : processor.config.maxCycles ≤ budget) (hreason : processor.run.1 ≠ .cycleLimit) :
    (processor.budgeted budget).run = (processor.run.1, processor.run.2.budgeted budget) := by
  induction processor using run.induct with
  | case1 processor reason hstatus =>
    have hlarger : (processor.budgeted budget).status = .halted reason := hstatus
    rw [run_of_halted hstatus, run_of_halted hlarger]
  | case2 processor hstatus _ ih =>
    have hlarger : (processor.budgeted budget).status = .ready := hstatus
    rw [run_of_ready hstatus] at hreason
    have hstep : processor.step.status ≠ .halted .cycleLimit := by
      intro h
      rw [run_of_halted h] at hreason
      exact hreason rfl
    rw [run_of_ready hlarger, (step_budgeted hbudget hstep).1, run_of_ready hstatus]
    refine ih ?_ hreason
    rw [show processor.step.config = processor.config from config_steps 1 processor]
    exact hbudget

/-- A run that the budget stops is, under a larger budget, as many steps as there were cycles left. -/
theorem run_of_cycleLimit {processor : Processor δ} {budget : Nat}
    (ready : processor.status = .ready) (hcycles : processor.cycles ≤ processor.config.maxCycles)
    (hbudget : processor.config.maxCycles ≤ budget) (hreason : processor.run.1 = .cycleLimit) :
    processor.run.2 = ((steps (processor.config.maxCycles - processor.cycles)
        (processor.budgeted budget)).budgeted processor.config.maxCycles).stop .cycleLimit ∧
      processor.runInstructions.length = processor.config.maxCycles - processor.cycles ∧
      processor.runInstructions = instructions (processor.config.maxCycles - processor.cycles)
        (processor.budgeted budget) := by
  induction processor using run.induct with
  | case1 processor reason hstatus => rw [hstatus] at ready; cases ready
  | case2 processor hstatus _ ih =>
    rw [run_of_ready hstatus] at hreason ⊢
    rw [runInstructions_of_ready hstatus]
    cases processor.stepped with
    | halted reason status => rw [hstatus] at status; cases status
    | atTop _ _ _ step =>
      rw [step, run_of_halted rfl] at hreason
      cases hreason
    | spent _ _ hspent executed step =>
      -- The budget is spent here, so no step is left for the larger one to repeat.
      have hnone : processor.config.maxCycles - processor.cycles = 0 := by omega
      rw [hnone, executed, step, run_of_halted rfl, runInstructions_of_halted rfl]
      exact ⟨rfl, rfl, rfl⟩
    | executes instruction _ _ hroom _ executed step =>
      have hcount : processor.step.cycles = processor.cycles + 1 := by rw [step]; rfl
      have hconfig : processor.step.config = processor.config := config_steps 1 processor
      cases hnext : processor.step.status with
      | halted reason =>
        rw [run_of_halted hnext] at hreason
        subst hreason
        exact absurd hnext (status_step_ne_cycleLimit executed)
      | ready =>
        -- One of the cycles that are left is used, and the induction hypothesis has the others.
        have hleft : processor.config.maxCycles - processor.cycles =
            processor.step.config.maxCycles - processor.step.cycles + 1 := by
          rw [hconfig, hcount]
          omega
        have hstep := step_budgeted hbudget (by rw [hnext]; decide)
        obtain ⟨hrun, hlength, hsame⟩ := ih hnext (by rw [hconfig, hcount]; exact hroom)
          (by rw [hconfig]; exact hbudget) hreason
        rw [hleft, steps, instructions, hstep.1, hstep.2, executed, ← hsame, hrun, hconfig]
        exact ⟨rfl, by simp [hlength, hconfig], rfl⟩

/-- **A budget only truncates.** Two machines that are ready and equal but for the larger budget of the
second: when the first stops for another reason than its budget, so does the second, for the same reason
and in the same state. When its budget stops the first, it has executed as many instructions as it had
cycles left, and all but its status and its budget is as in the second after as many steps. -/
theorem budget_only_truncates {smaller larger : Processor δ} (ready : smaller.status = .ready)
    (same : larger = smaller.budgeted larger.config.maxCycles)
    (hbudgets : smaller.config.maxCycles ≤ larger.config.maxCycles)
    (hcycles : smaller.cycles ≤ smaller.config.maxCycles) :
    let left := smaller.config.maxCycles - smaller.cycles
    (smaller.run.1 ≠ .cycleLimit →
      larger.run = (smaller.run.1, smaller.run.2.budgeted larger.config.maxCycles)) ∧
    (smaller.run.1 = .cycleLimit →
      smaller.runInstructions.length = left ∧
      smaller.runInstructions = instructions left larger ∧
      smaller.run.2 =
        ((steps left larger).budgeted smaller.config.maxCycles).stop .cycleLimit) := by
  intro left
  rw [same]
  refine ⟨fun hreason => run_budgeted hbudgets hreason, fun hreason => ?_⟩
  obtain ⟨hrun, hlength, hsame⟩ := run_of_cycleLimit ready hcycles hbudgets hreason
  exact ⟨hlength, hsame, hrun⟩

/-- Code that prints a letter and then goes on with the given bytes, in front of a console. -/
def printing (rest : List UInt8) (maxCycles : Nat) : Processor Console :=
  { (new ⟨maxCycles, .singleBit⟩ : Processor Console) with
    core := { Core.initial with
      memory := Core.initial.memory.writeAll 0 ([0x21, 65, 0xD1, 0] ++ rest) }
    slots := [⟨0, Console.empty⟩] }

/-- A program that halts with the last cycle of its budget is not stopped by it, and one that prints
over and over is stopped in the middle. -/
theorem budget_only_truncates_printing :
    let halting := printing [0xC0, 0]
    let looping := printing [0xB0, 0]
    ((halting 3).run.1 = .halted ∧
      (halting 8).run = ((halting 3).run.1, (halting 3).run.2.budgeted 8)) ∧
    ((looping 4).run.1 = .cycleLimit ∧ (looping 4).runInstructions.length = 4 ∧
      (looping 4).runInstructions = instructions 4 (looping 8) ∧
      (looping 4).run.2 = ((steps 4 (looping 8)).budgeted 4).stop .cycleLimit) := by
  intro halting looping
  have hhalted : (steps 3 (halting 3)).status = .halted .halted := by decide +kernel
  have hstopped : (steps 5 (looping 4)).status = .halted .cycleLimit := by decide +kernel
  have hlooping : (looping 4).run.1 = .cycleLimit := by rw [run_of_steps hstopped]
  have hhalting : (halting 3).run.1 = .halted := by rw [run_of_steps hhalted]
  have hother : (halting 3).run.1 ≠ .cycleLimit := by
    rw [hhalting]
    decide
  have hsame (rest : List UInt8) (smaller larger : Nat) :
      printing rest larger = (printing rest smaller).budgeted larger := rfl
  exact ⟨⟨hhalting, (budget_only_truncates rfl (hsame _ 3 8) (by decide) (by decide)).1 hother⟩,
    hlooping, (budget_only_truncates rfl (hsame _ 4 8) (by decide) (by decide)).2 hlooping⟩

end Processor

end ByteBasic
