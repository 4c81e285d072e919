import ByteBasic.Machine.Core
import ByteBasic.Machine.Device
import ByteBasic.Machine.Image
import ByteBasic.Note

/-!
# The processor

A processor is a core with devices around it, a cycle budget and a status. One step either stops the
machine or runs one instruction cycle: the devices see their ports, the word at the program counter
is executed, the devices see their ports again, and the cycle is counted.

* `Processor.step` is one step; a halted processor stays as it is.
* `Processor.run` steps until the machine halts. It ends because every step either halts the machine
  or uses up one cycle of the budget (`remaining_step_lt`).
* `Processor.stepNotes` and `Processor.runNotes` say what a step and a run remark on; they are
  functions of the state before it, so no step has to carry them along.
-/

namespace ByteBasic

/-- The settings of a processor. -/
structure Config where
  /-- The number of instructions after which the machine stops on its own. -/
  maxCycles : Nat := 65536
  rotate : RotateMode := .singleBit
  deriving DecidableEq

/-- Whether a processor can go on, and if not, why. -/
inductive Status
  | ready
  | halted (reason : StopReason)
  deriving DecidableEq

/-- A core with its devices, in the order in which they were attached. -/
structure Processor (δ : Type) where
  core : Core
  cycles : Nat
  status : Status
  config : Config
  slots : List (Slot δ)
  deriving DecidableEq

/-- Why an image was not loaded. -/
inductive LoadError
  /-- The image could not be read. -/
  | unreadable
  /-- The image has more bytes than memory. -/
  | tooLarge (size : Nat)
  deriving DecidableEq

def LoadError.message : LoadError → String
  | .unreadable => "failed to read program image"
  | .tooLarge size => "image of " ++ Decimal.numeral size ++ " bytes does not fit in memory"

def memorySize : Nat := 256

/-- A word can be fetched only below this address. -/
def codeLimit : Nat := 255

namespace Processor

variable {δ : Type}

def new (config : Config) : Processor δ where
  core := .initial
  cycles := 0
  status := .ready
  config := config
  slots := []

/-- Attaches a device to a port, after the devices already there. -/
def attach (processor : Processor δ) (address : UInt8) (device : δ) : Processor δ :=
  { processor with slots := processor.slots ++ [⟨address, device⟩] }

/-! ## Loading and clearing -/

/-- Copies bytes into memory from address zero; the rest of memory stays. -/
def loadBytes (processor : Processor δ) (bytes : List UInt8) : Except LoadError (Processor δ) :=
  if bytes.length > memorySize then .error (.tooLarge bytes.length)
  else .ok { processor with
    core := { processor.core with memory := processor.core.memory.writeAll 0 bytes } }

def loadImage (processor : Processor δ) (image : Image) : Except LoadError (Processor δ) :=
  processor.loadBytes image.bytes

/-- Loads what was read from a file, if it could be read. -/
def loadContents (processor : Processor δ) (contents : Option (List UInt8)) :
    Except LoadError (Processor δ) :=
  match contents with
  | some bytes => processor.loadBytes bytes
  | none => .error .unreadable

/-- Puts everything but memory back to rest. Devices stay attached and are cleared. -/
def clear [Device δ] (processor : Processor δ) : Processor δ where
  core := { Core.initial with memory := processor.core.memory }
  cycles := 0
  status := .ready
  config := processor.config
  slots := processor.slots.map fun slot => { slot with device := Device.clear slot.device }

/-- Puts everything back to rest, memory included. Devices stay attached and are cleared. -/
def reset [Device δ] (processor : Processor δ) : Processor δ :=
  { processor.clear with core := .initial }

/-! ## Stepping -/

/-- Hands every device its port in turn; a device sees what the ones before it left there. -/
def strobe (hook : δ → UInt8 → δ × UInt8) : List (Slot δ) → Bank 256 → List (Slot δ) × Bank 256
  | [], ports => ([], ports)
  | slot :: slots, ports =>
    let (device, value) := hook slot.device (ports.read slot.address.toNat)
    let (slots, ports) := strobe hook slots (ports.write slot.address.toNat value)
    (⟨slot.address, device⟩ :: slots, ports)

def fetch (core : Core) : UInt16 :=
  wordOfBytes (core.memory.read core.pc) (core.memory.read (core.pc + 1))

def stop (processor : Processor δ) (reason : StopReason) : Processor δ :=
  { processor with status := .halted reason }

/-- The status after an instruction that gave this reason to stop, or none. -/
def statusAfter : Option StopReason → Status
  | none => .ready
  | some reason => .halted reason

/-- One instruction cycle. -/
def cycle [Device δ] (processor : Processor δ) : Processor δ :=
  let (slots, ports) := strobe Device.beforeStep processor.slots processor.core.ports
  let instruction := Instruction.decode (fetch processor.core)
  let (core, reason) := Core.execute processor.config.rotate instruction
    { processor.core with ports := ports, pc := processor.core.pc + 2 }
  let (slots, ports) := strobe Device.afterStep slots core.ports
  { core := { core with ports := ports }
    cycles := processor.cycles + 1
    status := statusAfter reason
    config := processor.config
    slots := slots }

/-- One step: nothing on a halted machine, else a stop at the top of memory or at the end of the
budget, else one instruction cycle. -/
def step [Device δ] (processor : Processor δ) : Processor δ :=
  match processor.status with
  | .halted _ => processor
  | .ready =>
    if processor.core.pc ≥ codeLimit then processor.stop .endOfMemory
    else if processor.cycles ≥ processor.config.maxCycles then processor.stop .cycleLimit
    else processor.cycle

/-- A bound on the steps that a processor can still make. -/
def remaining (processor : Processor δ) : Nat :=
  match processor.status with
  | .halted _ => 0
  | .ready => processor.config.maxCycles - processor.cycles + 1

/-- A step of a machine that is ready uses up some of what remains. -/
theorem remaining_step_lt [Device δ] (processor : Processor δ) (h : processor.status = .ready) :
    processor.step.remaining < processor.remaining := by
  unfold step
  rw [h]
  simp only
  split
  · simp [remaining, stop, h]
  · split
    · simp [remaining, stop, h]
    · simp only [remaining, cycle, h]
      split <;> omega

/-- Steps until the machine halts, and gives the reason with the final state. -/
def run [Device δ] (processor : Processor δ) : StopReason × Processor δ :=
  match h : processor.status with
  | .halted reason => (reason, processor)
  | .ready =>
    have := remaining_step_lt processor h
    run processor.step
termination_by processor.remaining

/-! ## Notes -/

/-- What the execution of an instruction remarks on, besides that it happened: an unknown word, and
a push onto a full stack. -/
def executionNotes (instruction : Instruction) (pc : Nat) (reason : Option StopReason) :
    List Note :=
  match instruction, reason with
  | .unknown word, _ => [⟨.debug, "skipping unknown word 0x" ++ Hex.numeral 4 word.toNat⟩]
  | _, some .stackOverflow => [⟨.warn, "stack overflow at i" ++ Hex.numeral 2 pc⟩]
  | _, _ => []

/-- What one step from this state remarks on. -/
def stepNotes [Device δ] (processor : Processor δ) : List Note :=
  match processor.status with
  | .halted _ => []
  | .ready =>
    let pc := processor.core.pc
    if pc ≥ codeLimit then
      [⟨.warn, "reached end of memory at i" ++ Hex.numeral 2 pc ++ " without HALT"⟩]
    else if processor.cycles ≥ processor.config.maxCycles then
      [⟨.warn, "cycle budget of " ++ Decimal.numeral processor.config.maxCycles ++ " exhausted"⟩]
    else
      let word := fetch processor.core
      let instruction := Instruction.decode word
      let reason := (Core.execute processor.config.rotate instruction processor.core).2
      ⟨.trace, Image.listingLine pc word⟩ :: executionNotes instruction (pc + 2) reason

/-- Adds what a run from this state remarks on to earlier notes, the newest first. -/
def runNotesOnto [Device δ] (earlier : List Note) (processor : Processor δ) : List Note :=
  match h : processor.status with
  | .halted _ => earlier
  | .ready =>
    have := remaining_step_lt processor h
    runNotesOnto (processor.stepNotes.reverse ++ earlier) processor.step
termination_by processor.remaining

/-- What a run from this state remarks on. -/
def runNotes [Device δ] (processor : Processor δ) : List Note :=
  (runNotesOnto [] processor).reverse

end Processor

end ByteBasic
