import ByteBasic.Proofs.Machine.Consoles
import ByteBasic.Proofs.Machine.Cycles

/-!
# What consoles receive

A port keeps its value from one step to the next, but a console sees a value only in the step that
wrote it: it clears its port before the instruction and looks at it after. This holds for any number
of consoles, also where several share a port, since looking at a port does not change it.

**Theorem (`consoles_show_what_is_written`).** After any number of steps, the text of each console has
grown by exactly the bytes other than zero that these steps wrote to its port, in order, each step
writing one at most. An instruction that reads the port of a console reads zero.
-/

namespace ByteBasic

namespace Processor

/-! ## Strobes of consoles -/

theorem slots_strobe_before (slots : List (Slot Console)) (ports : Bank 256) :
    (strobe Device.beforeStep slots ports).1 = slots := by
  induction slots generalizing ports with
  | nil => rfl
  | cons slot slots ih => exact congrArg (slot :: ·) (ih _)

theorem read_strobe_before {slots : List (Slot Console)} (ports : Bank 256) {address : UInt8}
    (h : address ∈ addresses slots) :
    (strobe Device.beforeStep slots ports).2.read address.toNat = 0 := by
  induction slots generalizing ports with
  | nil => cases h
  | cons slot slots ih =>
    show (strobe Device.beforeStep slots (ports.write slot.address.toNat 0)).2.read _ = 0
    by_cases hrest : address ∈ addresses slots
    · exact ih _ hrest
    · obtain rfl : address = slot.address := (List.mem_cons.1 h).resolve_right hrest
      rw [read_strobe _ _ hrest]
      exact Bank.read_write_self ports slot.address.toNat_lt 0

/-- After an instruction, every console receives what its port holds, and the ports stay. -/
theorem strobe_after (slots : List (Slot Console)) (ports : Bank 256) :
    strobe Device.afterStep slots ports =
      (slots.map fun slot =>
        { slot with device := slot.device.receive (ports.read slot.address.toNat) }, ports) := by
  induction slots with
  | nil => rfl
  | cons slot slots ih =>
    have hsame : ports.write slot.address.toNat (ports.read slot.address.toNat) = ports :=
      Bank.write_read ports _
    show (_ :: (strobe Device.afterStep slots (ports.write _ _)).1,
      (strobe Device.afterStep slots (ports.write _ _)).2) = _
    rw [hsame, ih]
    rfl

/-! ## Steps -/

section Written

variable {δ : Type}

/-- The byte that the next step writes to a port, if it writes one there. -/
def written? (processor : Processor δ) (address : UInt8) : Option UInt8 :=
  processor.executed?.bind fun instruction => Core.written? address instruction processor.core

/-- The bytes that a number of steps write to a port, in order. -/
def written [Device δ] (processor : Processor δ) (address : UInt8) (count : Nat) : List UInt8 :=
  (List.range count).filterMap fun step => (steps step processor).written? address

theorem written_succ [Device δ] (processor : Processor δ) (address : UInt8) (count : Nat) :
    processor.written address (count + 1) =
      processor.written address count ++ ((steps count processor).written? address).toList := by
  unfold written
  rw [List.range_succ, List.filterMap_append, List.filterMap_cons, List.filterMap_nil]
  cases (steps count processor).written? address <;> rfl

end Written

variable (processor : Processor Console)

/-- Around an instruction, a console receives what is written to its port, and nothing if nothing
is. -/
theorem consoles_executing (instruction : Instruction) :
    (processor.executing instruction).slots = processor.slots.map fun slot =>
      { slot with
        device := slot.device.receiveAll
          (Core.written? slot.address instruction processor.core).toList } := by
  rw [slots_executing, slots_strobe_before, strobe_after]
  refine List.map_congr_left fun slot hslot => ?_
  have hcleared : processor.poised.port slot.address = 0 :=
    read_strobe_before processor.core.ports (List.mem_map_of_mem hslot)
  have hwritten : Core.written? slot.address instruction processor.poised =
      Core.written? slot.address instruction processor.core := by
    cases instruction <;> rfl
  have hport := Core.port_execute processor.config.rotate instruction processor.poised slot.address
  rw [hcleared, hwritten] at hport
  have hreceive : slot.device.receive
      ((Core.execute processor.config.rotate instruction processor.poised).1.ports.read
        slot.address.toNat) = slot.device.receiveAll
          (Core.written? slot.address instruction processor.core).toList := by
    refine (congrArg slot.device.receive hport).trans ?_
    cases Core.written? slot.address instruction processor.core <;> rfl
  rw [hreceive]

/-- A step in which every console receives what is written to its port. -/
theorem slots_step : processor.step.slots = processor.slots.map fun slot =>
    { slot with device := slot.device.receiveAll (processor.written? slot.address).toList } := by
  have hidle : processor.executed? = none →
      processor.slots = processor.slots.map fun slot =>
        { slot with device := slot.device.receiveAll (processor.written? slot.address).toList } := by
    intro hexecuted
    simp [written?, hexecuted]
  cases processor.stepped with
  | halted _ _ executed step | atTop _ _ executed step | spent _ _ _ executed step =>
    rw [step]
    exact hidle executed
  | executes instruction _ _ _ _ executed step =>
    rw [step, consoles_executing]
    simp [written?, executed]

theorem slots_steps (count : Nat) : (steps count processor).slots = processor.slots.map fun slot =>
    { slot with device := slot.device.receiveAll (processor.written slot.address count) } := by
  induction count with
  | zero =>
    show processor.slots = _
    simp [written]
  | succ count ih =>
    rw [steps_add count 1]
    show (steps count processor).step.slots = _
    rw [slots_step, ih, List.map_map]
    refine List.map_congr_left fun slot _ => ?_
    rw [written_succ, Console.receiveAll_append]
    rfl

/-- What is read from the port of a console is zero. -/
theorem reg_step_of_loadPort {r address : UInt8}
    (hexecuted : processor.executed? = some (.loadPort r address))
    (h : address ∈ addresses processor.slots) : processor.step.core.reg r = 0 := by
  obtain ⟨fits, step⟩ := step_of_executed? hexecuted
  have hr : r.toNat < 16 := fits (.reg, r) (by simp [Instruction.nibbles])
  rw [step, core_executing]
  exact (Bank.read_write_self processor.core.registers hr _).trans
    (read_strobe_before processor.core.ports h)

/-- **Consoles.** The text of every console grows by exactly the bytes, zeros apart, that are written
to its port, one to a step at most, in the order of the steps; and the port of a console always reads
zero. -/
theorem consoles_show_what_is_written (count : Nat) :
    ((steps count processor).slots = processor.slots.map fun slot =>
      ⟨slot.address, ⟨slot.device.text ++ String.ofList
        (((processor.written slot.address count).filter (· ≠ 0)).map Console.character)⟩⟩) ∧
    ∀ r address, (steps count processor).executed? = some (.loadPort r address) →
      address ∈ addresses processor.slots → (steps (count + 1) processor).core.reg r = 0 := by
  constructor
  · rw [slots_steps]
    refine List.map_congr_left fun slot _ => ?_
    rw [← Console.receiveAll_text]
  · intro r address hexecuted haddress
    rw [steps_add count 1]
    exact reg_step_of_loadPort _ hexecuted (by rwa [addresses_steps])

/-- Two consoles at port zero and one at port one, around code that writes the byte 65 to port zero,
then reads that port and halts. -/
def sharing : Processor Console :=
  { (new {} : Processor Console) with
    core := { Core.initial with
      memory := Core.initial.memory.writeAll 0 [0x21, 65, 0xD1, 0, 0xE1, 0, 0xC0, 0] }
    slots := [⟨0, .empty⟩, ⟨1, .empty⟩, ⟨0, .empty⟩] }

/-- Both consoles at port zero receive the byte once, and the code reads zero there. -/
theorem consoles_show_what_is_written_sharing :
    ((steps 4 sharing).slots.map fun slot => slot.device.text) = ["A", "", "A"] ∧
      (steps 2 sharing).core.reg 1 = 65 ∧
      (steps 2 sharing).executed? = some (.loadPort 1 0) ∧ (steps 3 sharing).core.reg 1 = 0 := by
  have hslots := (consoles_show_what_is_written sharing 4).1
  have hexecuted : (steps 2 sharing).executed? = some (.loadPort 1 0) := by decide +kernel
  refine ⟨?_, by decide +kernel, hexecuted,
    (consoles_show_what_is_written sharing 2).2 1 0 hexecuted (by decide)⟩
  have hzero : sharing.written 0 4 = [65] := by decide +kernel
  have hone : sharing.written 1 4 = [] := by decide +kernel
  rw [hslots]
  simp only [sharing, List.map_cons, List.map_nil] at hzero hone ⊢
  rw [hzero, hone]
  decide

end Processor

end ByteBasic
