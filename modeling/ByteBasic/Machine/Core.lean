import ByteBasic.Machine.Bank
import ByteBasic.Machine.Instruction

/-!
# Executing one instruction

`Core` is what an instruction can read and change, and `Core.execute` is its effect. The program
counter already points past the instruction when it is executed. An instruction either lets the
machine go on or gives the reason for which it stops.
-/

namespace ByteBasic

/-- How a rotation treats its amount. -/
inductive RotateMode
  /-- By one bit, whatever the amount says. -/
  | singleBit
  /-- By the amount. -/
  | byAmount
  deriving DecidableEq

/-- Why the machine stopped. -/
inductive StopReason
  /-- It executed a halt. -/
  | halted
  /-- The program counter reached the top of memory. -/
  | endOfMemory
  /-- The cycle budget ran out. -/
  | cycleLimit
  /-- A push found the stack full; the exit code is then 1. -/
  | stackOverflow
  deriving DecidableEq

/-- A push onto a stack this deep overflows it. -/
def stackLimit : Nat := 256

/-- The part of the machine that instructions act on. -/
structure Core where
  registers : Bank 16
  memory : Bank 256
  ports : Bank 256
  /-- The pushed bytes, the last one first. -/
  stack : List UInt8
  pc : Nat
  exitCode : UInt8
  deriving DecidableEq

namespace Core

/-- The core at rest: everything is zero and the stack is empty. -/
def initial : Core where
  registers := .zero 16
  memory := .zero 256
  ports := .zero 256
  stack := []
  pc := 0
  exitCode := 0

/-- The value of a register. -/
def reg (core : Core) (register : UInt8) : UInt8 :=
  core.registers.read register.toNat

def setReg (core : Core) (register value : UInt8) : Core :=
  { core with registers := core.registers.write register.toNat value }

/-- The value of a memory cell. -/
def mem (core : Core) (address : UInt8) : UInt8 :=
  core.memory.read address.toNat

def setMem (core : Core) (address value : UInt8) : Core :=
  { core with memory := core.memory.write address.toNat value }

/-- The value of a port. -/
def port (core : Core) (address : UInt8) : UInt8 :=
  core.ports.read address.toNat

def setPort (core : Core) (address value : UInt8) : Core :=
  { core with ports := core.ports.write address.toNat value }

/-- The value of a side of a move. Reading the stack pops it; an empty stack gives zero. -/
def readSide (core : Core) : Side → UInt8 × Core
  | .general register => (core.reg register, core)
  | .special .programCounter => (UInt8.ofNat core.pc, core)
  | .special .stack =>
    match core.stack with
    | [] => (0, core)
    | top :: rest => (top, { core with stack := rest })
  | .special .exitCode => (core.exitCode, core)

/-- Puts a value into a side of a move. Writing the stack pushes onto it, if there is room. -/
def writeSide (core : Core) (side : Side) (value : UInt8) : Core × Option StopReason :=
  match side with
  | .general register => (core.setReg register value, none)
  | .special .programCounter => ({ core with pc := value.toNat }, none)
  | .special .stack =>
    if core.stack.length ≥ stackLimit then ({ core with exitCode := 1 }, some .stackOverflow)
    else ({ core with stack := value :: core.stack }, none)
  | .special .exitCode => ({ core with exitCode := value }, none)

/-- The byte turned to the right by `amount` bits. -/
def rotateRight (byte : UInt8) (amount : Nat) : UInt8 :=
  ⟨byte.toBitVec.rotateRight amount⟩

/-- The result of an arithmetic or logical operation; the reserved one has none. -/
def aluResult? (op : AluOp) (left right : UInt8) : Option UInt8 :=
  match op with
  | .add => some (left + right)
  | .addFloat => none
  | .or => some (left ||| right)
  | .and => some (left &&& right)
  | .xor => some (left ^^^ right)

/-- Whether a jump with register value `value` is taken when `r0` holds `zero`. -/
def jumpTaken (test : JumpTest) (value zero : UInt8) : Bool :=
  match test with
  | .equal => value == zero
  | .less => value < zero

/-- How far a rotation turns under a mode. -/
def rotateAmount (mode : RotateMode) (amount : UInt8) : Nat :=
  match mode with
  | .singleBit => 1
  | .byAmount => amount.toNat

/-- The effect of an instruction, and the reason to stop if it gives one. -/
def execute (mode : RotateMode) (instruction : Instruction) (core : Core) :
    Core × Option StopReason :=
  match instruction with
  | .noOp => (core, none)
  | .loadMem r m => (core.setReg r (core.mem m), none)
  | .load r i => (core.setReg r i, none)
  | .store r m => (core.setMem m (core.reg r), none)
  | .move source dest =>
    let (value, core) := core.readSide source
    core.writeSide dest value
  | .alu op d a b =>
    match aluResult? op (core.reg a) (core.reg b) with
    | some value => (core.setReg d value, none)
    | none => (core, none)
  | .rotate r n => (core.setReg r (rotateRight (core.reg r) (rotateAmount mode n)), none)
  | .jump test r target =>
    if jumpTaken test (core.reg r) (core.reg 0) then ({ core with pc := target.toNat }, none)
    else (core, none)
  | .halt => (core, some .halted)
  | .storePort r p => (core.setPort p (core.reg r), none)
  | .loadPort r p => (core.setReg r (core.port p), none)
  | .unknown _ => (core, none)

end Core

end ByteBasic
