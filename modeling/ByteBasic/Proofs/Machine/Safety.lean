import ByteBasic.Proofs.Machine.Requests

/-!
# What holds of every machine that can be reached

Whatever is in memory and whatever the devices do, requests to a new machine lead to safe states only
(`Checked.Safe`): the program counter, the stack and the number of cycles stay within their bounds, a
machine has halted exactly when there is a reason on record, and it is in the state that the reason
says.

**Theorem (`reached_is_safe`).** Every request to a checked machine can be met, with the outcome that it
has for a processor. Every state reached is safe, and so is every state on the way of a run from there,
each step being in bounds.

An instruction can spoil nothing but its own core, so the invariant is proved of a core first
(`Core.Sound`); what the four ways of a step add is in `Safe.step`.
-/

namespace ByteBasic

namespace Core

/-- The program counter and the stack are within their bounds. -/
structure Sound (core : Core) : Prop where
  pc_le : core.pc ≤ 256
  stack_le : core.stack.length ≤ stackLimit

/-- What a reason to stop says of the core in which an instruction gave it. -/
def Ended (core : Core) : StopReason → Prop
  | .halted => True
  | .stackOverflow => core.exitCode = 1 ∧ core.stack.length = stackLimit
  | .endOfMemory => False
  | .cycleLimit => False

/-- The outcome of an instruction: a sound core, which is as the reason to stop says if there is
one. -/
def Endures (outcome : Core × Option StopReason) : Prop :=
  outcome.1.Sound ∧ ∀ reason, outcome.2 = some reason → outcome.1.Ended reason

variable {core : Core}

theorem Sound.initial : initial.Sound :=
  ⟨Nat.zero_le _, Nat.zero_le _⟩

theorem Sound.endures (h : core.Sound) : Endures (core, none) :=
  ⟨h, fun _ hreason => by cases hreason⟩

/-- The bounds do not depend on registers, memory and ports. -/
theorem Sound.of_eq {core' : Core} (h : core.Sound) (hpc : core'.pc = core.pc)
    (hstack : core'.stack = core.stack) : core'.Sound :=
  ⟨hpc ▸ h.pc_le, hstack ▸ h.stack_le⟩

theorem Sound.jump (h : core.Sound) (target : UInt8) : { core with pc := target.toNat }.Sound :=
  ⟨Nat.le_of_lt target.toNat_lt, h.stack_le⟩

/-- Reading a side leaves the stack as it is or pops it. -/
theorem Sound.readSide (h : core.Sound) (side : Side) : (core.readSide side).2.Sound := by
  rcases side with register | special
  · exact h
  · cases special with
    | programCounter | exitCode => exact h
    | stack =>
      unfold Core.readSide
      cases hstack : core.stack with
      | nil => exact h
      | cons top rest =>
        refine ⟨h.pc_le, ?_⟩
        have hle := h.stack_le
        rw [hstack, List.length_cons] at hle
        exact Nat.le_of_succ_le hle

/-- A push stops the machine only when the stack is full. -/
theorem Sound.writeSide (h : core.Sound) (side : Side) (value : UInt8) :
    Endures (core.writeSide side value) := by
  rcases side with register | special
  · exact Sound.endures (h.of_eq rfl rfl)
  · cases special with
    | programCounter => exact (h.jump value).endures
    | exitCode => exact Sound.endures (h.of_eq rfl rfl)
    | stack =>
      simp only [Core.writeSide]
      split
      · next hfull =>
        refine ⟨h.of_eq rfl rfl, fun reason hreason => ?_⟩
        cases hreason
        exact ⟨rfl, Nat.le_antisymm h.stack_le hfull⟩
      · next hroom => exact Sound.endures ⟨h.pc_le, Nat.lt_of_not_le hroom⟩

/-- Every instruction keeps the bounds, and gives a reason to stop only for what it says. -/
theorem Sound.execute (h : core.Sound) (mode : RotateMode) (instruction : Instruction) :
    Endures (execute mode instruction core) := by
  cases instruction with
  | noOp | unknown => exact h.endures
  | loadMem | load | store | rotate | storePort | loadPort =>
    exact Sound.endures (h.of_eq rfl rfl)
  | move source dest => exact (h.readSide source).writeSide dest _
  | alu op d a b =>
    simp only [Core.execute]
    split
    · exact Sound.endures (h.of_eq rfl rfl)
    · exact h.endures
  | jump test r target =>
    simp only [Core.execute]
    split
    · exact (h.jump target).endures
    · exact h.endures
  | halt => exact ⟨h, fun reason hreason => by cases hreason; trivial⟩

end Core

open Processor (Request)

variable {δ : Type}

namespace Checked

/-! ## Safe states -/

/-- What holds of a machine in every state that can be reached. -/
structure Safe (machine : Checked δ) : Prop where
  pc_le : machine.core.pc ≤ 256
  stack_le : machine.core.stack.length ≤ 256
  cycles_le : machine.cycles ≤ machine.config.maxCycles
  /-- A machine has halted exactly when there is a reason on record. -/
  halted_iff : machine.halted = true ↔ ∃ reason, machine.reason = some reason
  overflow : machine.reason = some .stackOverflow →
    machine.core.exitCode = 1 ∧ machine.core.stack.length = 256
  atTop : machine.reason = some .endOfMemory → 255 ≤ machine.core.pc
  spent : machine.reason = some .cycleLimit → machine.cycles = machine.config.maxCycles

namespace Safe

theorem of_eq {machine machine' : Checked δ} (h : machine.Safe)
    (hpc : machine'.core.pc = machine.core.pc) (hstack : machine'.core.stack = machine.core.stack)
    (hexit : machine'.core.exitCode = machine.core.exitCode)
    (hcycles : machine'.cycles = machine.cycles) (hhalted : machine'.halted = machine.halted)
    (hreason : machine'.reason = machine.reason) (hconfig : machine'.config = machine.config) :
    machine'.Safe := by
  refine ⟨?_, ?_, ?_, ?_, ?_, ?_, ?_⟩
  · rw [hpc]
    exact h.pc_le
  · rw [hstack]
    exact h.stack_le
  · rw [hcycles, hconfig]
    exact h.cycles_le
  · rw [hhalted, hreason]
    exact h.halted_iff
  · rw [hreason, hexit, hstack]
    exact h.overflow
  · rw [hreason, hpc]
    exact h.atTop
  · rw [hreason, hcycles, hconfig]
    exact h.spent

variable {processor : Processor δ}

theorem of_ready (ready : processor.status = .ready) (sound : processor.core.Sound)
    (hcycles : processor.cycles ≤ processor.config.maxCycles) : processor.checked.Safe := by
  have hreason : processor.stopReason? = none := by rw [Processor.stopReason?, ready]
  have hnone : ∀ reason, processor.stopReason? ≠ some reason := by simp [hreason]
  exact ⟨sound.pc_le, sound.stack_le, hcycles, processor.isHalted_iff,
    fun h => absurd h (hnone _), fun h => absurd h (hnone _), fun h => absurd h (hnone _)⟩

theorem stop (h : processor.checked.Safe) {reason : StopReason} (hoverflow : reason ≠ .stackOverflow)
    (htop : reason = .endOfMemory → 255 ≤ processor.core.pc)
    (hspent : reason = .cycleLimit → processor.config.maxCycles ≤ processor.cycles) :
    (processor.stop reason).checked.Safe := by
  have hreason : ∀ other, (processor.stop reason).stopReason? = some other → other = reason :=
    fun other hother => by cases hother; rfl
  exact ⟨h.pc_le, h.stack_le, h.cycles_le, (processor.stop reason).isHalted_iff,
    fun heq => absurd (hreason _ heq).symm hoverflow, fun heq => htop (hreason _ heq).symm,
    fun heq => Nat.le_antisymm h.cycles_le (hspent (hreason _ heq).symm)⟩

theorem new (config : Config) : (Processor.new config : Processor δ).checked.Safe :=
  .of_ready rfl .initial (Nat.zero_le _)

/-- A machine after an instruction is safe if the instruction left its core as it should. -/
theorem of_endures {reason : Option StopReason} (h : Core.Endures (processor.core, reason))
    (hstatus : processor.status = Processor.statusAfter reason)
    (hcycles : processor.cycles ≤ processor.config.maxCycles) : processor.checked.Safe := by
  obtain ⟨hsound, hended⟩ := h
  have hrecord : ∀ recorded, processor.stopReason? = some recorded →
      processor.core.Ended recorded := by
    intro recorded hrecorded
    rw [Processor.stopReason?_eq_some, hstatus] at hrecorded
    cases reason with
    | none => cases hrecorded
    | some given =>
      cases hrecorded
      exact hended _ rfl
  exact ⟨hsound.pc_le, hsound.stack_le, hcycles, processor.isHalted_iff, fun heq => hrecord _ heq,
    fun heq => (hrecord _ heq).elim, fun heq => (hrecord _ heq).elim⟩

variable [Device δ]

/-- A cycle is safe if there is room for an instruction and a cycle left. -/
theorem executing (h : processor.checked.Safe) (hpc : processor.core.pc < codeLimit)
    (hcycles : processor.cycles < processor.config.maxCycles) (instruction : Instruction) :
    (processor.executing instruction).checked.Safe := by
  have hbefore : processor.poised.Sound := by
    refine ⟨?_, h.stack_le⟩
    show processor.core.pc + 2 ≤ 256
    simp only [codeLimit] at hpc
    omega
  obtain ⟨hsound, hended⟩ := hbefore.execute processor.config.rotate instruction
  refine of_endures ⟨?_, fun reason hreason => ?_⟩ (processor.status_executing instruction) hcycles
  · rw [Processor.core_executing]
    exact hsound.of_eq rfl rfl
  · -- what a reason says of a core does not depend on the ports, which the devices see once more
    rw [Processor.core_executing]
    have hended := hended reason hreason
    cases reason <;> exact hended

theorem step (h : processor.checked.Safe) : processor.step.checked.Safe := by
  cases processor.stepped with
  | halted reason _ _ step =>
    rw [step]
    exact h
  | atTop _ hpc _ step =>
    rw [step]
    exact h.stop (by decide) (fun _ => hpc) fun heq => by cases heq
  | spent _ _ hcycles _ step =>
    rw [step]
    exact h.stop (by decide) (fun heq => by cases heq) fun _ => hcycles
  | executes instruction _ hpc hcycles _ _ step =>
    rw [step]
    exact h.executing hpc hcycles instruction

theorem steps (h : processor.checked.Safe) (count : Nat) :
    (Processor.steps count processor).checked.Safe := by
  induction count generalizing processor with
  | zero => exact h
  | succ count ih => exact ih h.step

omit [Device δ] in
theorem loadBytes (h : processor.checked.Safe) (bytes : List UInt8) :
    ((processor.loadBytes bytes).toOption.getD processor).checked.Safe := by
  unfold Processor.loadBytes
  split
  · exact h
  · exact h.of_eq rfl rfl rfl rfl rfl rfl rfl

theorem serve (h : processor.checked.Safe) (request : Request δ) :
    (processor.serve request).checked.Safe := by
  cases request with
  | attach address device => exact h.of_eq rfl rfl rfl rfl rfl rfl rfl
  | loadBytes bytes => exact h.loadBytes bytes
  | loadWords words => exact h.loadBytes _
  | loadImage image => exact h.loadBytes _
  | step => exact h.step
  | run =>
    obtain ⟨count, hsteps⟩ := processor.exists_run
    rw [Processor.serve, hsteps]
    exact h.steps count
  | clear => exact .of_ready rfl ⟨Nat.zero_le _, Nat.zero_le _⟩ (Nat.zero_le _)
  | reset => exact .of_ready rfl ⟨Nat.zero_le _, Nat.zero_le _⟩ (Nat.zero_le _)

theorem serveAll (h : processor.checked.Safe) (requests : List (Request δ)) :
    (processor.serveAll requests).checked.Safe := by
  induction requests generalizing processor with
  | nil => exact h
  | cons request requests ih => exact ih (h.serve request)

end Safe

end Checked

namespace Processor

variable [Device δ]

/-- **Safety.** Whatever is asked of a new machine, with any settings and any devices, it never fails:
it is in the state of the processor that was asked the same, and so it is after any number of steps from
there. All these states are safe. A run is a number of such steps. -/
theorem reached_is_safe (maxCycles : UInt64) (rotate : RotateMode) (requests : List (Request δ)) :
    let reached := serveAll (new ⟨maxCycles.toNat, rotate⟩ : Processor δ) requests
    (Checked.new ⟨maxCycles.toNat, rotate⟩).serveAll? requests = some reached.checked ∧
    (∀ count, (steps count reached).checked.Safe ∧
      (steps count reached).checked.step? =
        some ((steps count reached).progress, (steps (count + 1) reached).checked)) ∧
    ∃ count, reached.run.2 = steps count reached ∧
      reached.run.2.checked.reason = some reached.run.1 := by
  intro reached
  have hbudget : (new ⟨maxCycles.toNat, rotate⟩ : Processor δ).config.maxCycles < UInt64.size :=
    maxCycles.toNat_lt_size
  have hreached : reached.config.maxCycles < UInt64.size := by
    rw [config_serveAll]
    exact hbudget
  refine ⟨serveAll?_checked hbudget requests, fun count => ⟨?_, ?_⟩, ?_⟩
  · exact ((Checked.Safe.new _).serveAll requests).steps count
  · have hsteps : (steps count reached).config.maxCycles < UInt64.size := by
      rw [config_steps]
      exact hreached
    rw [step?_checked hsteps, steps_add count 1]
    rfl
  · obtain ⟨count, hrun⟩ := reached.exists_run
    exact ⟨count, hrun, reached.stopReason?_run⟩

end Processor

end ByteBasic
