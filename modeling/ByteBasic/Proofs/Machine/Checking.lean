import ByteBasic.Proofs.Machine.Cycles

/-!
# Accesses in bounds

Reading outside a bank gives zero and writing there changes nothing, so a processor has a next state
whatever its program does; and its status cannot be that of a machine which has halted for no reason.
`Checked` is a machine that takes nothing of this for granted. It fails at the first read or write
outside a bank, be it a register, a memory cell or a port, and when the number of cycles no longer fits
in 64 bits. Whether it has halted and why are two records, which nothing but its steps keeps together.

**Theorem (`step?_checked`).** In the state of a processor, the checked machine does not fail: its step
leads to the state of the processor after its own step, and reports the same. An instruction is fetched
only where memory has a whole word, its registers come from nibbles, and addresses are bytes.

**Theorem (`run?_checked`).** So do its steps in a loop, which comes to an end when the budget is spent
at the latest.
-/

namespace ByteBasic

namespace Bank

variable {n : Nat} (bank : Bank n) {address : Nat}

/-- The byte at an address, if there is one. -/
def read? (address : Nat) : Option UInt8 :=
  bank.cells[address]?

/-- Replaces the byte at an address, if there is one. -/
def write? (address : Nat) (value : UInt8) : Option (Bank n) :=
  if address < n then some (bank.write address value) else none

theorem read?_of_lt (h : address < n) : bank.read? address = some (bank.read address) := by
  simp [read?, read, h]

theorem write?_of_lt (h : address < n) (value : UInt8) :
    bank.write? address value = some (bank.write address value) :=
  if_pos h

end Bank

namespace Core

variable (core : Core)

/-! ## Registers, cells and ports -/

def reg? (register : UInt8) : Option UInt8 :=
  core.registers.read? register.toNat

/-- Puts a value into a register that exists. -/
def setReg? (register value : UInt8) : Option Core := do
  let registers ← core.registers.write? register.toNat value
  return { core with registers := registers }

def mem? (address : UInt8) : Option UInt8 :=
  core.memory.read? address.toNat

/-- Puts a value into a memory cell that exists. -/
def setMem? (address value : UInt8) : Option Core := do
  let memory ← core.memory.write? address.toNat value
  return { core with memory := memory }

def port? (address : UInt8) : Option UInt8 :=
  core.ports.read? address.toNat

/-- Puts a value into a port that exists. -/
def setPort? (address value : UInt8) : Option Core := do
  let ports ← core.ports.write? address.toNat value
  return { core with ports := ports }

theorem reg?_of_lt {register : UInt8} (h : register.toNat < 16) :
    core.reg? register = some (core.reg register) :=
  core.registers.read?_of_lt h

theorem setReg?_of_lt {register : UInt8} (h : register.toNat < 16) (value : UInt8) :
    core.setReg? register value = some (core.setReg register value) := by
  rw [setReg?, Bank.write?_of_lt _ h]
  rfl

/-- Every byte is the address of a cell. -/
@[simp] theorem mem?_eq (address : UInt8) : core.mem? address = some (core.mem address) :=
  core.memory.read?_of_lt address.toNat_lt

@[simp] theorem setMem?_eq (address value : UInt8) :
    core.setMem? address value = some (core.setMem address value) := by
  rw [setMem?, Bank.write?_of_lt _ address.toNat_lt]
  rfl

/-- Every byte is the address of a port. -/
@[simp] theorem port?_eq (address : UInt8) : core.port? address = some (core.port address) :=
  core.ports.read?_of_lt address.toNat_lt

@[simp] theorem setPort?_eq (address value : UInt8) :
    core.setPort? address value = some (core.setPort address value) := by
  rw [setPort?, Bank.write?_of_lt _ address.toNat_lt]
  rfl

/-! ## Instructions -/

/-- The value of a side of a move, if its register exists. -/
def readSide? : Side → Option (UInt8 × Core)
  | .general register => do return (← core.reg? register, core)
  | .special register => some (core.readSide (.special register))

/-- Puts a value into a side of a move, if its register exists. -/
def writeSide? (side : Side) (value : UInt8) : Option (Core × Option StopReason) :=
  match side with
  | .general register => do return (← core.setReg? register value, none)
  | .special register => some (core.writeSide (.special register) value)

/-- The effect of an instruction, if all that it reads and writes exists. -/
def execute? (mode : RotateMode) (instruction : Instruction) :
    Option (Core × Option StopReason) :=
  match instruction with
  | .noOp => some (core, none)
  | .loadMem r m => do return (← core.setReg? r (← core.mem? m), none)
  | .load r i => do return (← core.setReg? r i, none)
  | .store r m => do return (← core.setMem? m (← core.reg? r), none)
  | .move source dest => do
    let (value, core) ← core.readSide? source
    core.writeSide? dest value
  | .alu op d a b => do
    match aluResult? op (← core.reg? a) (← core.reg? b) with
    | some value => return (← core.setReg? d value, none)
    | none => return (core, none)
  | .rotate r n => do
    return (← core.setReg? r (rotateRight (← core.reg? r) (rotateAmount mode n)), none)
  | .jump test r target => do
    if jumpTaken test (← core.reg? r) (← core.reg? 0) then
      return ({ core with pc := target.toNat }, none)
    else return (core, none)
  | .halt => some (core, some .halted)
  | .storePort r p => do return (← core.setPort? p (← core.reg? r), none)
  | .loadPort r p => do return (← core.setReg? r (← core.port? p), none)
  | .unknown _ => some (core, none)

theorem readSide?_eq {side : Side} (h : side.index.toNat < 16) :
    core.readSide? side = some (core.readSide side) := by
  cases side with
  | general register =>
    have hr : register.toNat < 16 := h
    rw [readSide?, core.reg?_of_lt hr]
    rfl
  | special register => rfl

theorem writeSide?_eq {side : Side} (h : side.index.toNat < 16) (value : UInt8) :
    core.writeSide? side value = some (core.writeSide side value) := by
  cases side with
  | general register =>
    have hr : register.toNat < 16 := h
    rw [writeSide?, core.setReg?_of_lt hr]
    rfl
  | special register => rfl

/-- All that an instruction reads and writes exists if its operands fit in their fields. -/
theorem execute?_eq (mode : RotateMode) {instruction : Instruction} (h : instruction.Fits) :
    core.execute? mode instruction = some (execute mode instruction core) := by
  cases instruction with
  | noOp | halt | unknown => rfl
  | loadMem r m | load r m | loadPort r m =>
    have hr : r.toNat < 16 := h (.reg, r) (by simp [Instruction.nibbles])
    simp [execute?, execute, core.setReg?_of_lt hr]
  | store r m | storePort r m =>
    have hr : r.toNat < 16 := h (.reg, r) (by simp [Instruction.nibbles])
    simp [execute?, execute, core.reg?_of_lt hr]
  | move source dest =>
    have hs : source.index.toNat < 16 := h (.src, source.index) (by simp [Instruction.nibbles])
    have hd : dest.index.toNat < 16 := h (.dest, dest.index) (by simp [Instruction.nibbles])
    simp [execute?, execute, core.readSide?_eq hs, writeSide?_eq _ hd]
  | alu op d a b =>
    have hd : d.toNat < 16 := h (.dest, d) (by simp [Instruction.nibbles])
    have ha : a.toNat < 16 := h (.src1, a) (by simp [Instruction.nibbles])
    have hb : b.toNat < 16 := h (.src2, b) (by simp [Instruction.nibbles])
    cases hresult : aluResult? op (core.reg a) (core.reg b) <;>
      simp [execute?, execute, core.reg?_of_lt ha, core.reg?_of_lt hb, core.setReg?_of_lt hd, hresult]
  | rotate r n =>
    have hr : r.toNat < 16 := h (.reg, r) (by simp [Instruction.nibbles])
    simp [execute?, execute, core.reg?_of_lt hr, core.setReg?_of_lt hr]
  | jump test r target =>
    have hr : r.toNat < 16 := h (.reg, r) (by simp [Instruction.nibbles])
    have hzero : (0 : UInt8).toNat < 16 := by decide
    cases htaken : jumpTaken test (core.reg r) (core.reg 0) <;>
      simp [execute?, execute, core.reg?_of_lt hr, core.reg?_of_lt hzero, htaken]

end Core

namespace Processor

variable {δ : Type}

/-! ## Steps -/

/-- Hands every device its port in turn, if the ports exist. -/
def strobe? (hook : δ → UInt8 → δ × UInt8) :
    List (Slot δ) → Bank 256 → Option (List (Slot δ) × Bank 256)
  | [], ports => some ([], ports)
  | slot :: slots, ports => do
    let (device, value) := hook slot.device (← ports.read? slot.address.toNat)
    let (slots, ports) ← strobe? hook slots (← ports.write? slot.address.toNat value)
    return (⟨slot.address, device⟩ :: slots, ports)

/-- The word at the program counter, if memory has both of its bytes. -/
def fetch? (core : Core) : Option UInt16 := do
  return wordOfBytes (← core.memory.read? core.pc) (← core.memory.read? (core.pc + 1))

/-- Counts a cycle, if 64 bits can hold the count. -/
def count? (cycles : Nat) : Option Nat :=
  if cycles + 1 < UInt64.size then some (cycles + 1) else none

theorem strobe?_eq (hook : δ → UInt8 → δ × UInt8) (slots : List (Slot δ)) (ports : Bank 256) :
    strobe? hook slots ports = some (strobe hook slots ports) := by
  induction slots generalizing ports with
  | nil => rfl
  | cons slot slots ih =>
    have hlt := slot.address.toNat_lt
    simp [strobe?, strobe, Bank.read?_of_lt _ hlt, Bank.write?_of_lt _ hlt, ih]

theorem fetch?_eq {core : Core} (h : core.pc < codeLimit) : fetch? core = some (fetch core) := by
  have h : core.pc < 255 := h
  rw [fetch?, Bank.read?_of_lt _ (by omega), Bank.read?_of_lt _ (by omega)]
  rfl

end Processor

/-- A machine with nothing taken for granted. -/
structure Checked (δ : Type) where
  core : Core
  cycles : Nat
  /-- Whether the machine has halted. -/
  halted : Bool
  /-- Why it has halted. -/
  reason : Option StopReason
  config : Config
  slots : List (Slot δ)
  deriving DecidableEq

namespace Checked

open Processor (Progress strobe? fetch? count?)

def new (config : Config) : Checked δ where
  core := .initial
  cycles := 0
  halted := false
  reason := none
  config := config
  slots := []

def stop (machine : Checked δ) (reason : StopReason) : Progress × Checked δ :=
  (.stopped, { machine with halted := true, reason := some reason })

variable [Device δ]

/-- One instruction cycle, if all its accesses are in bounds. -/
def cycle? (machine : Checked δ) : Option (Progress × Checked δ) := do
  let (slots, ports) ← strobe? Device.beforeStep machine.slots machine.core.ports
  let instruction := Instruction.decode (← fetch? machine.core)
  let (core, reason) ← Core.execute?
    { machine.core with ports := ports, pc := machine.core.pc + 2 } machine.config.rotate instruction
  let (slots, ports) ← strobe? Device.afterStep slots core.ports
  let cycles ← count? machine.cycles
  let after := { machine with
    core := { core with ports := ports }
    cycles := cycles
    slots := slots }
  match reason with
  | some reason => return after.stop reason
  | none => return (.goesOn, after)

/-- One step, if all its accesses are in bounds, with what it reports. -/
def step? (machine : Checked δ) : Option (Progress × Checked δ) :=
  if machine.halted then some (.stopped, machine)
  else if machine.core.pc ≥ codeLimit then some (machine.stop .endOfMemory)
  else if machine.cycles ≥ machine.config.maxCycles then some (machine.stop .cycleLimit)
  else machine.cycle?

/-- Steps until one of them reports a stop and there is a reason on record, but no more than a given
number of steps. -/
def run? : Nat → Checked δ → Option (StopReason × Checked δ)
  | 0, _ => none
  | limit + 1, machine => do
    let (progress, after) ← machine.step?
    match progress, after.reason with
    | .stopped, some reason => return (reason, after)
    | _, _ => run? limit after

end Checked

namespace Processor

/-! ## Processors as checked machines -/

def isHalted (processor : Processor δ) : Bool :=
  match processor.status with
  | .ready => false
  | .halted _ => true

def stopReason? (processor : Processor δ) : Option StopReason :=
  match processor.status with
  | .ready => none
  | .halted reason => some reason

theorem isHalted_iff (processor : Processor δ) :
    processor.isHalted = true ↔ ∃ reason, processor.stopReason? = some reason := by
  unfold isHalted stopReason?
  cases processor.status <;> simp

theorem stopReason?_eq_some {processor : Processor δ} {reason : StopReason} :
    processor.stopReason? = some reason ↔ processor.status = .halted reason := by
  unfold stopReason?
  cases processor.status <;> simp

/-- The state of a processor as one of the checked machine. -/
def checked (processor : Processor δ) : Checked δ where
  core := processor.core
  cycles := processor.cycles
  halted := processor.isHalted
  reason := processor.stopReason?
  config := processor.config
  slots := processor.slots

variable [Device δ] {processor : Processor δ}

/-- A cycle that the processor has room and budget for is in bounds. -/
theorem cycle?_checked (ready : processor.status = .ready) (hpc : processor.core.pc < codeLimit)
    (hcycles : processor.cycles < processor.config.maxCycles)
    (h : processor.config.maxCycles < UInt64.size) :
    processor.checked.cycle? = some (processor.progress, processor.step.checked) := by
  have hcount : count? processor.cycles = some (processor.cycles + 1) := if_pos (by omega)
  have hstep : processor.step = processor.cycle := by
    simp [step, ready, Nat.not_le.2 hpc, Nat.not_le.2 hcycles]
  rw [progress, hstep]
  simp only [Checked.cycle?, checked, cycle, strobe?_eq, fetch?_eq hpc, hcount, Option.bind_eq_bind,
    Option.bind_some, Core.execute?_eq _ _ (Instruction.fits_decode _), Option.pure_def]
  rcases Core.execute _ _ _ with ⟨core, _ | reason⟩
  · simp [isHalted, stopReason?, ready, statusAfter]
  · rfl

/-- No step reads or writes outside a bank, the count of cycles does not overflow, and both records of
a stop are made by it. -/
theorem step?_checked (h : processor.config.maxCycles < UInt64.size) :
    processor.checked.step? = some (processor.progress, processor.step.checked) := by
  have hready : processor.status = .ready → processor.checked.halted = false := by
    intro ready
    simp [checked, isHalted, ready]
  cases processor.stepped with
  | halted reason status _ step =>
    have hhalted : processor.checked.halted = true := by simp [checked, isHalted, status]
    rw [Checked.step?, if_pos hhalted, progress, step, status]
  | atTop ready hpc _ step =>
    rw [Checked.step?, hready ready, progress, step]
    exact if_pos hpc
  | spent ready hpc hcycles _ step =>
    rw [Checked.step?, hready ready, progress, step]
    exact (if_neg (Nat.not_le.2 hpc)).trans (if_pos hcycles)
  | executes instruction ready hpc hcycles =>
    rw [Checked.step?, hready ready, ← cycle?_checked ready hpc hcycles h]
    exact (if_neg (Nat.not_le.2 hpc)).trans (if_neg (Nat.not_le.2 hcycles))

/-- Steps in a loop end within the budget, with the reason on record. On a halted machine that takes one
step. -/
theorem run?_checked (h : processor.config.maxCycles < UInt64.size) {limit : Nat}
    (hlimit : processor.remaining ≤ limit) (hpos : 0 < limit) :
    processor.checked.run? limit = some (processor.run.1, processor.run.2.checked) := by
  induction processor using run.induct generalizing limit with
  | case1 processor reason hstatus =>
    obtain ⟨limit, rfl⟩ : ∃ rest, limit = rest + 1 := ⟨limit - 1, by omega⟩
    rw [Checked.run?, step?_checked h, progress, step_of_halted hstatus, run_of_halted hstatus]
    simp [checked, stopReason?, hstatus]
  | case2 processor hstatus _ ih =>
    have hlt := remaining_step_lt processor hstatus
    obtain ⟨limit, rfl⟩ : ∃ rest, limit = rest + 1 := ⟨limit - 1, by omega⟩
    rw [Checked.run?, step?_checked h, progress, run_of_ready hstatus]
    cases hnext : processor.step.status with
    | ready =>
      have hmore : 0 < processor.step.remaining := by
        rw [remaining, hnext]
        exact Nat.succ_pos _
      exact ih (config_steps 1 processor ▸ h) (by omega) (by omega)
    | halted reason =>
      rw [run_of_halted hnext]
      simp [checked, stopReason?, hnext]

end Processor

end ByteBasic
