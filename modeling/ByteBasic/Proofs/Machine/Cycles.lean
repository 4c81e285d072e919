import ByteBasic.Proofs.Machine.Decoding
import ByteBasic.Proofs.Machine.Running

/-!
# One step in full

A step goes one of four ways (`Processor.stepped`): nothing happens on a halted machine, the machine
stops at the top of memory or at the end of its budget, or the instruction at the program counter is
executed between the two strobes. `Processor.executed?` is that instruction. It comes from a word, so
its operands fit in their fields (`Instruction.fits_decode`).

An instruction changes at most one port (`Core.port_execute`). A strobe hands each device the value of
its own port, and so changes no other port (`Processor.read_strobe`).
-/

namespace ByteBasic

namespace Core

/-! ## Ports -/

/-- The byte that an instruction writes to a port, if it writes one there. -/
def written? (address : UInt8) : Instruction → Core → Option UInt8
  | .storePort r p, core => if p = address then some (core.reg r) else none
  | _, _ => none

theorem ports_readSide (core : Core) (side : Side) : (core.readSide side).2.ports = core.ports := by
  rcases side with register | special
  · rfl
  · cases special with
    | programCounter | exitCode => rfl
    | stack =>
      unfold readSide
      cases core.stack <;> rfl

theorem ports_writeSide (core : Core) (side : Side) (value : UInt8) :
    (core.writeSide side value).1.ports = core.ports := by
  rcases side with register | special
  · rfl
  · cases special with
    | programCounter | exitCode => rfl
    | stack =>
      simp only [writeSide]
      split <;> rfl

/-- A port holds what the instruction wrote there, or what it held before. -/
theorem port_execute (mode : RotateMode) (instruction : Instruction) (core : Core)
    (address : UInt8) : (execute mode instruction core).1.port address =
      (written? address instruction core).getD (core.port address) := by
  cases instruction with
  | storePort r p =>
    by_cases h : p = address
    · subst h
      rw [written?, if_pos rfl]
      exact Bank.read_write_self core.ports p.toNat_lt _
    · rw [written?, if_neg h]
      exact Bank.read_write_of_ne core.ports (fun e => h (UInt8.toNat_inj.1 e)) _
  | move source dest =>
    have hports : (execute mode (.move source dest) core).1.ports = core.ports :=
      (ports_writeSide _ dest _).trans (core.ports_readSide source)
    rw [port, hports]
    rfl
  | alu op d a b =>
    simp only [execute]
    split <;> rfl
  | jump test r target =>
    simp only [execute]
    split <;> rfl
  | _ => rfl

end Core

namespace Processor

variable {δ : Type}

/-! ## Strobes -/

/-- The ports that devices are attached to. -/
def addresses (slots : List (Slot δ)) : List UInt8 :=
  slots.map Slot.address

theorem addresses_strobe (hook : δ → UInt8 → δ × UInt8) (slots : List (Slot δ))
    (ports : Bank 256) : addresses (strobe hook slots ports).1 = addresses slots := by
  induction slots generalizing ports with
  | nil => rfl
  | cons slot slots ih => exact congrArg (slot.address :: ·) (ih _)

/-- A strobe leaves a port alone that no device is attached to. -/
theorem read_strobe (hook : δ → UInt8 → δ × UInt8) {slots : List (Slot δ)} (ports : Bank 256)
    {address : UInt8} (h : address ∉ addresses slots) :
    (strobe hook slots ports).2.read address.toNat = ports.read address.toNat := by
  induction slots generalizing ports with
  | nil => rfl
  | cons slot slots ih =>
    obtain ⟨hne, hrest⟩ := List.ne_and_not_mem_of_not_mem_cons h
    have hother : slot.address.toNat ≠ address.toNat := fun e => hne (UInt8.toNat_inj.1 e).symm
    show (strobe hook slots _).2.read address.toNat = _
    rw [ih _ hrest, Bank.read_write_of_ne _ hother]

/-! ## Steps -/

/-- The instruction that the next step executes, if it executes one. -/
def executed? (processor : Processor δ) : Option Instruction :=
  if processor.status = .ready ∧ processor.core.pc < codeLimit ∧
      processor.cycles < processor.config.maxCycles then
    some (Instruction.decode (fetch processor.core))
  else none

/-- What a step reports. -/
inductive Progress
  /-- The machine can go on. -/
  | goesOn
  /-- The machine has stopped, in this step or before. -/
  | stopped
  deriving DecidableEq

variable [Device δ]

/-- Whether the machine can go on after its next step. -/
def progress (processor : Processor δ) : Progress :=
  match processor.step.status with
  | .ready => .goesOn
  | .halted _ => .stopped

/-- One cycle around an instruction: the program counter points past it when it is executed. -/
def executing (processor : Processor δ) (instruction : Instruction) : Processor δ :=
  processor.during fun core =>
    Core.execute processor.config.rotate instruction { core with pc := core.pc + 2 }

/-- The core as an instruction finds it: the devices have seen their ports, and the program counter
points past the instruction. -/
def poised (processor : Processor δ) : Core :=
  { processor.core with
    ports := (strobe Device.beforeStep processor.slots processor.core.ports).2
    pc := processor.core.pc + 2 }

section Executing

variable (processor : Processor δ) (instruction : Instruction)

theorem status_executing : (processor.executing instruction).status =
    statusAfter (Core.execute processor.config.rotate instruction processor.poised).2 := rfl

/-- The ports apart, the core after a cycle is the one that the instruction left. -/
theorem core_executing : (processor.executing instruction).core =
    { (Core.execute processor.config.rotate instruction processor.poised).1 with
      ports := (processor.executing instruction).core.ports } := rfl

theorem ports_executing : (processor.executing instruction).core.ports =
    (strobe Device.afterStep (strobe Device.beforeStep processor.slots processor.core.ports).1
      (Core.execute processor.config.rotate instruction processor.poised).1.ports).2 := rfl

theorem slots_executing : (processor.executing instruction).slots =
    (strobe Device.afterStep (strobe Device.beforeStep processor.slots processor.core.ports).1
      (Core.execute processor.config.rotate instruction processor.poised).1.ports).1 := rfl

end Executing

/-- The four ways in which a step can go. -/
inductive Stepped (processor : Processor δ) : Prop
  | halted (reason : StopReason) (status : processor.status = .halted reason)
      (executed : processor.executed? = none) (step : processor.step = processor)
  | atTop (ready : processor.status = .ready) (hpc : codeLimit ≤ processor.core.pc)
      (executed : processor.executed? = none) (step : processor.step = processor.stop .endOfMemory)
  | spent (ready : processor.status = .ready) (hpc : processor.core.pc < codeLimit)
      (hcycles : processor.config.maxCycles ≤ processor.cycles)
      (executed : processor.executed? = none) (step : processor.step = processor.stop .cycleLimit)
  | executes (instruction : Instruction) (ready : processor.status = .ready)
      (hpc : processor.core.pc < codeLimit)
      (hcycles : processor.cycles < processor.config.maxCycles) (fits : instruction.Fits)
      (executed : processor.executed? = some instruction)
      (step : processor.step = processor.executing instruction)

theorem stepped (processor : Processor δ) : processor.Stepped := by
  cases hstatus : processor.status with
  | halted reason =>
    exact .halted reason hstatus (by simp [executed?, hstatus]) (step_of_halted hstatus)
  | ready =>
    rcases Nat.lt_or_ge processor.core.pc codeLimit with hpc | hpc
    · rcases Nat.lt_or_ge processor.cycles processor.config.maxCycles with hcycles | hcycles
      · exact .executes _ hstatus hpc hcycles (Instruction.fits_decode _)
          (if_pos ⟨hstatus, hpc, hcycles⟩) (step_of_decode hstatus hpc hcycles rfl)
      · refine .spent hstatus hpc hcycles (by simp [executed?, Nat.not_lt.2 hcycles]) ?_
        simp [step, hstatus, Nat.not_le.2 hpc, hcycles]
    · refine .atTop hstatus hpc (by simp [executed?, Nat.not_lt.2 hpc]) ?_
      simp [step, hstatus, hpc]

/-- A step that executes an instruction is a cycle around it. -/
theorem step_of_executed? {processor : Processor δ} {instruction : Instruction}
    (h : processor.executed? = some instruction) :
    instruction.Fits ∧ processor.step = processor.executing instruction := by
  cases processor.stepped with
  | halted _ _ executed | atTop _ _ executed | spent _ _ _ executed =>
    rw [executed] at h
    cases h
  | executes other _ _ _ fits executed step =>
    rw [executed] at h
    cases h
    exact ⟨fits, step⟩

theorem addresses_steps (processor : Processor δ) (count : Nat) :
    addresses (steps count processor).slots = addresses processor.slots := by
  have hstep : ∀ processor : Processor δ,
      addresses processor.step.slots = addresses processor.slots := by
    intro processor
    cases processor.stepped with
    | halted _ _ _ step => rw [step]
    | atTop _ _ _ step | spent _ _ _ _ step =>
      rw [step]
      rfl
    | executes instruction _ _ _ _ _ step =>
      rw [step, slots_executing, addresses_strobe, addresses_strobe]
  induction count generalizing processor with
  | zero => rfl
  | succ count ih => rw [steps, ih, hstep]

theorem config_steps (count : Nat) (processor : Processor δ) :
    (steps count processor).config = processor.config := by
  have hstep : ∀ processor : Processor δ, processor.step.config = processor.config := by
    intro processor
    cases processor.stepped with
    | halted _ _ _ step => rw [step]
    | atTop _ _ _ step | spent _ _ _ _ step | executes _ _ _ _ _ _ step =>
      rw [step]
      rfl
  induction count generalizing processor with
  | zero => rfl
  | succ count ih => rw [steps, ih, hstep]

end Processor

end ByteBasic
