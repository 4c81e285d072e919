import ByteBasic.Proofs.Machine.Cycles

/-!
# Devices and the program

The only way from a device to the program is an instruction that reads the port of the device.
Whatever else a program does, it does not notice which devices there are, where they are attached or
what they do with their ports.

`Processor.Agrees` relates two processors whose devices may differ in number, place and sort: they are
equal but for the devices and the `hidden` ports.

**Theorem (`devices_act_through_loads`).** Two processors that agree but for their devices and the ports
of these agree after any number of steps, and report the same of every step, as long as one of them
reads no port that either has a device at.

One instruction keeps the agreement of cores (`Core.Agrees.execute`), the strobes around it change
hidden ports only, and a run is the steps in turn.
-/

namespace ByteBasic

/-- The port that an instruction reads or writes. -/
def Instruction.port? : Instruction → Option UInt8
  | .storePort _ p => some p
  | .loadPort _ p => some p
  | _ => none

namespace Core

/-! ## Cores -/

theorem readSide_withPorts (core : Core) (ports : Bank 256) (side : Side) :
    readSide { core with ports := ports } side =
      ((core.readSide side).1, { (core.readSide side).2 with ports := ports }) := by
  rcases side with register | special
  · rfl
  · cases special with
    | programCounter | exitCode => rfl
    | stack =>
      obtain ⟨registers, memory, _, stack, pc, exitCode⟩ := core
      cases stack <;> rfl

theorem writeSide_withPorts (core : Core) (ports : Bank 256) (side : Side) (value : UInt8) :
    writeSide { core with ports := ports } side value =
      ({ (core.writeSide side value).1 with ports := ports }, (core.writeSide side value).2) := by
  rcases side with register | special
  · rfl
  · cases special with
    | programCounter | exitCode => rfl
    | stack =>
      simp only [writeSide]
      split <;> rfl

/-- An instruction without a port does the same whatever the ports hold. -/
theorem execute_withPorts (mode : RotateMode) {instruction : Instruction}
    (h : instruction.port? = none) (core : Core) (ports : Bank 256) :
    execute mode instruction { core with ports := ports } =
      ({ (execute mode instruction core).1 with ports := ports },
        (execute mode instruction core).2) := by
  cases instruction with
  | storePort | loadPort => cases h
  | move source dest =>
    simp only [execute, readSide_withPorts]
    exact writeSide_withPorts _ ports dest _
  | alu op d a b =>
    have hreg : ∀ r, reg { core with ports := ports } r = core.reg r := fun _ => rfl
    simp only [execute, hreg]
    cases aluResult? op (core.reg a) (core.reg b) <;> rfl
  | jump test r target =>
    have hreg : ∀ r, reg { core with ports := ports } r = core.reg r := fun _ => rfl
    simp only [execute, hreg]
    cases jumpTaken test (core.reg r) (core.reg 0) <;> rfl
  | _ => rfl

/-- Two cores that are equal but for some ports. -/
structure Agrees (hidden : List UInt8) (left right : Core) : Prop where
  registers : left.registers = right.registers
  memory : left.memory = right.memory
  stack : left.stack = right.stack
  pc : left.pc = right.pc
  exitCode : left.exitCode = right.exitCode
  port : ∀ address ∉ hidden, left.port address = right.port address

namespace Agrees

variable {hidden : List UInt8} {left right : Core}

theorem symm (h : Agrees hidden left right) : Agrees hidden right left :=
  ⟨h.registers.symm, h.memory.symm, h.stack.symm, h.pc.symm, h.exitCode.symm,
    fun address haddress => (h.port address haddress).symm⟩

theorem eq (h : Agrees hidden left right) : right = { left with ports := right.ports } := by
  obtain ⟨registers, memory, ports, stack, pc, exitCode⟩ := right
  obtain ⟨rfl, rfl, rfl, rfl, rfl, -⟩ := h
  rfl

/-- Only ports that are not hidden matter. -/
theorem withPorts (h : Agrees hidden left right) {ports ports' : Bank 256}
    (hports : ∀ address ∉ hidden, ports.read address.toNat = ports'.read address.toNat) :
    Agrees hidden { left with ports := ports } { right with ports := ports' } :=
  ⟨h.registers, h.memory, h.stack, h.pc, h.exitCode, hports⟩

theorem setReg (h : Agrees hidden left right) (r value : UInt8) :
    Agrees hidden (left.setReg r value) (right.setReg r value) :=
  ⟨by rw [Core.setReg, Core.setReg, h.registers], h.memory, h.stack, h.pc, h.exitCode, h.port⟩

theorem setPort (h : Agrees hidden left right) (address value : UInt8) :
    Agrees hidden (left.setPort address value) (right.setPort address value) := by
  refine h.withPorts fun other hother => ?_
  by_cases hsame : address.toNat = other.toNat
  · rw [← hsame, Bank.read_write_self _ address.toNat_lt, Bank.read_write_self _ address.toNat_lt]
  · rw [Bank.read_write_of_ne _ hsame, Bank.read_write_of_ne _ hsame]
    exact h.port other hother

/-- An instruction that reads no hidden port does the same to both cores. -/
theorem execute (h : Agrees hidden left right) (mode : RotateMode) {instruction : Instruction}
    (hload : ∀ r address, instruction = .loadPort r address → address ∉ hidden) :
    Agrees hidden (execute mode instruction left).1 (execute mode instruction right).1 ∧
      (Core.execute mode instruction left).2 = (Core.execute mode instruction right).2 := by
  have hreg : ∀ r, left.reg r = right.reg r := fun r => by rw [reg, reg, h.registers]
  cases hport : instruction.port? with
  | none =>
    have hkeeps : ∀ address, (Core.execute mode instruction left).1.port address =
        left.port address := by
      intro address
      rw [port_execute]
      cases instruction <;> first | rfl | cases hport
    -- Without a port, the other core is this one with other ports before and after.
    have hright := execute_withPorts mode hport left right.ports
    rw [← h.eq] at hright
    rw [hright]
    exact ⟨⟨rfl, rfl, rfl, rfl, rfl, fun address haddress =>
      (hkeeps address).trans (h.port address haddress)⟩, rfl⟩
  | some p =>
    cases instruction with
    | storePort r p =>
      refine ⟨?_, rfl⟩
      show Agrees hidden (left.setPort p (left.reg r)) (right.setPort p (right.reg r))
      rw [hreg]
      exact h.setPort p _
    | loadPort r p =>
      refine ⟨?_, rfl⟩
      show Agrees hidden (left.setReg r (left.port p)) (right.setReg r (right.port p))
      rw [h.port p (hload r p rfl)]
      exact h.setReg r _
    | _ => cases hport

end Agrees

end Core

namespace Processor

variable {δ ε : Type} {hidden : List UInt8}

/-! ## Steps -/

/-- Two processors that are equal but for their devices and some ports. -/
structure Agrees (hidden : List UInt8) (left : Processor δ) (right : Processor ε) : Prop where
  core : left.core.Agrees hidden right.core
  cycles : left.cycles = right.cycles
  status : left.status = right.status
  config : left.config = right.config

/-- None of a number of steps reads a hidden port. -/
def Spares [Device δ] (hidden : List UInt8) (count : Nat) (processor : Processor δ) : Prop :=
  ∀ step < count, ∀ r address,
    (steps step processor).executed? = some (.loadPort r address) → address ∉ hidden

namespace Agrees

variable {left : Processor δ} {right : Processor ε}

theorem symm (h : Agrees hidden left right) : Agrees hidden right left :=
  ⟨h.core.symm, h.cycles.symm, h.status.symm, h.config.symm⟩

theorem executed? (h : Agrees hidden left right) : left.executed? = right.executed? := by
  have hfetch : fetch left.core = fetch right.core := by
    rw [fetch, fetch, h.core.memory, h.core.pc]
  rw [Processor.executed?, Processor.executed?, h.status, h.core.pc, h.cycles, h.config, hfetch]

theorem stop (h : Agrees hidden left right) (reason : StopReason) :
    Agrees hidden (left.stop reason) (right.stop reason) :=
  ⟨h.core, h.cycles, rfl, h.config⟩

variable [Device δ] [Device ε]

theorem poised (h : Agrees hidden left right) (hleft : addresses left.slots ⊆ hidden)
    (hright : addresses right.slots ⊆ hidden) : left.poised.Agrees hidden right.poised := by
  refine ⟨h.core.registers, h.core.memory, h.core.stack, congrArg (· + 2) h.core.pc,
    h.core.exitCode, fun address haddress => ?_⟩
  have hports : left.poised.port address = left.core.port address :=
    read_strobe _ _ fun hmem => haddress (hleft hmem)
  have hports' : right.poised.port address = right.core.port address :=
    read_strobe _ _ fun hmem => haddress (hright hmem)
  rw [hports, hports']
  exact h.core.port address haddress

/-- An instruction that reads no hidden port, between two strobes. -/
theorem executing (h : Agrees hidden left right) (hleft : addresses left.slots ⊆ hidden)
    (hright : addresses right.slots ⊆ hidden) {instruction : Instruction}
    (hload : ∀ r address, instruction = .loadPort r address → address ∉ hidden) :
    Agrees hidden (left.executing instruction) (right.executing instruction) := by
  obtain ⟨hcore, hreason⟩ := (h.poised hleft hright).execute left.config.rotate hload
  refine ⟨?_, congrArg (· + 1) h.cycles, ?_, h.config⟩
  · rw [core_executing, core_executing right, ← h.config]
    refine hcore.withPorts fun address haddress => ?_
    rw [ports_executing, ports_executing, ← h.config,
      read_strobe _ _ fun hmem => haddress (hleft ((addresses_strobe ..) ▸ hmem)),
      read_strobe _ _ fun hmem => haddress (hright ((addresses_strobe ..) ▸ hmem))]
    exact hcore.port address haddress
  · rw [status_executing, status_executing, ← h.config, hreason]

/-- A step that reads no hidden port keeps the agreement. -/
theorem step (h : Agrees hidden left right) (hleft : addresses left.slots ⊆ hidden)
    (hright : addresses right.slots ⊆ hidden)
    (hload : ∀ r address, left.executed? = some (.loadPort r address) → address ∉ hidden) :
    Agrees hidden left.step right.step := by
  cases left.stepped with
  | halted reason status _ step =>
    rw [step, step_of_halted (h.status ▸ status)]
    exact h
  | atTop ready hpc _ step =>
    have hstep : right.step = right.stop .endOfMemory := by
      simp [Processor.step, ← h.status, ready, ← h.core.pc, hpc]
    rw [step, hstep]
    exact h.stop _
  | spent ready hpc hcycles _ step =>
    have hstep : right.step = right.stop .cycleLimit := by
      simp [Processor.step, ← h.status, ready, ← h.core.pc, Nat.not_le.2 hpc, ← h.cycles, ← h.config,
        hcycles]
    rw [step, hstep]
    exact h.stop _
  | executes instruction _ _ _ _ executed step =>
    rw [step, (step_of_executed? (h.executed? ▸ executed)).2]
    exact h.executing hleft hright fun r address heq => hload r address (heq ▸ executed)

/-- Steps that read no hidden port keep the agreement. -/
theorem steps (h : Agrees hidden left right) (hleft : addresses left.slots ⊆ hidden)
    (hright : addresses right.slots ⊆ hidden) {count : Nat} (hspares : left.Spares hidden count) :
    Agrees hidden (steps count left) (steps count right) := by
  induction count with
  | zero => exact h
  | succ count ih =>
    have hagrees := ih fun step hstep => hspares step (Nat.lt_succ_of_lt hstep)
    rw [steps_add count 1, steps_add count 1]
    refine hagrees.step ?_ ?_ (hspares count (Nat.lt_succ_self count))
    · rw [addresses_steps]
      exact hleft
    · rw [addresses_steps]
      exact hright

theorem progress (h : Agrees hidden left.step right.step) : left.progress = right.progress := by
  rw [Processor.progress, Processor.progress, h.status]

end Agrees

/-- **Devices act through loads.** Two processors that are equal but for their devices and the ports
of these stay so for as many steps as one of them takes without reading such a port, and both report
the same of each of these steps. -/
theorem devices_act_through_loads [Device δ] [Device ε] {left : Processor δ} {right : Processor ε}
    {count : Nat} (h : Agrees (addresses left.slots ++ addresses right.slots) left right)
    (hspares : left.Spares (addresses left.slots ++ addresses right.slots) count ∨
      right.Spares (addresses left.slots ++ addresses right.slots) count) :
    Agrees (addresses left.slots ++ addresses right.slots) (steps count left) (steps count right) ∧
      ∀ step < count, (steps step left).progress = (steps step right).progress := by
  have hleft := List.subset_append_left (addresses left.slots) (addresses right.slots)
  have hright := List.subset_append_right (addresses left.slots) (addresses right.slots)
  generalize addresses left.slots ++ addresses right.slots = hidden at *
  have hagrees : ∀ step ≤ count, Agrees hidden (steps step left) (steps step right) := by
    intro step hstep
    rcases hspares with hspares | hspares
    · exact h.steps hleft hright fun k hk => hspares k (Nat.lt_of_lt_of_le hk hstep)
    · exact (h.symm.steps hright hleft fun k hk => hspares k (Nat.lt_of_lt_of_le hk hstep)).symm
  refine ⟨hagrees count (Nat.le_refl count), fun step hstep => ?_⟩
  have hnext := hagrees (step + 1) hstep
  rw [steps_add step 1, steps_add step 1] at hnext
  exact hnext.progress

/-- Code that writes to port zero, reads port nine, which holds three, and halts. -/
def talking (slots : List (Slot δ)) : Processor δ :=
  { (new {} : Processor δ) with
    core := { Core.initial with
      memory := Core.initial.memory.writeAll 0 [0x21, 65, 0xD1, 0, 0xE2, 9, 0xC0, 0]
      ports := Core.initial.ports.write 9 3 }
    slots := slots }

/-- A console that is written to and a feeder that is not read make no difference. -/
theorem devices_act_through_loads_talking :
    let left := talking [⟨0, Console.empty⟩]
    let right := talking [⟨5, Feeder.new [7]⟩]
    left.Agrees [0, 5] right ∧ left.Spares [0, 5] 4 ∧
      (steps 2 left).executed? = some (.loadPort 2 9) ∧ (steps 3 right).core.reg 2 = 3 ∧
      (Agrees [0, 5] (steps 4 left) (steps 4 right) ∧
        ∀ step < 4, (steps step left).progress = (steps step right).progress) := by
  intro left right
  have hagrees : left.Agrees [0, 5] right :=
    ⟨⟨rfl, rfl, rfl, rfl, rfl, fun _ _ => rfl⟩, rfl, rfl, rfl⟩
  have hexecuted : (List.range 4).map (fun step => (steps step left).executed?) =
      [some (.load 1 65), some (.storePort 1 0), some (.loadPort 2 9), some .halt] := by
    decide +kernel
  obtain ⟨h0, h1, h2, h3⟩ := by simpa [List.range, List.range.loop] using hexecuted
  have hspares : left.Spares [0, 5] 4 := by
    intro step hstep r address hload
    obtain rfl | rfl | rfl | rfl : step = 0 ∨ step = 1 ∨ step = 2 ∨ step = 3 := by omega
    · cases h0.symm.trans hload
    · cases h1.symm.trans hload
    · cases h2.symm.trans hload
      decide
    · cases h3.symm.trans hload
  have h : Agrees (addresses left.slots ++ addresses right.slots) left right := hagrees
  exact ⟨hagrees, hspares, h2, by decide +kernel, devices_act_through_loads h (.inl hspares)⟩

end Processor

end ByteBasic
