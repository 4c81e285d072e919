import ByteBasic.Text.Hex

/-!
# Instructions

The machine has sixteen registers, 256 bytes of memory and 256 ports, and one instruction to a word.
Sixteen opcodes cover every nibble; a word whose operands mean nothing is an instruction of its own,
`Instruction.unknown`, so that every word stands for some instruction.

* `Opcode`: the sixteen operations, in the order of their numbers, with their mnemonics.
* `Instruction`: an operation with its operands. A register operand is a whole byte here: only
  encoding asks that it fits in a nibble.
* `Instruction.text`: the form shown in listings and traces.
-/

namespace ByteBasic

/-- Registers that only a move can reach. -/
inductive SpecialRegister
  /-- Reads and writes the program counter. -/
  | programCounter
  /-- A write pushes; a read pops, or gives zero when nothing is left. -/
  | stack
  /-- Reads and writes the exit code. -/
  | exitCode
  deriving DecidableEq

namespace SpecialRegister

def index : SpecialRegister → UInt8
  | .programCounter => 0
  | .stack => 1
  | .exitCode => 2

def ofIndex? (index : UInt8) : Option SpecialRegister :=
  if index = 0 then some .programCounter
  else if index = 1 then some .stack
  else if index = 2 then some .exitCode
  else none

def name : SpecialRegister → String
  | .programCounter => "R_PGMI"
  | .stack => "R_STACK"
  | .exitCode => "R_EXIT"

theorem ofIndex?_index (register : SpecialRegister) : ofIndex? register.index = some register := by
  cases register <;> rfl

end SpecialRegister

/-- One side of a move. -/
inductive Side
  | general (register : UInt8)
  | special (register : SpecialRegister)
  deriving DecidableEq

namespace Side

def isSpecial : Side → Bool
  | .general _ => false
  | .special _ => true

def index : Side → UInt8
  | .general register => register
  | .special register => register.index

def ofIndex? (special : Bool) (index : UInt8) : Option Side :=
  if special then (SpecialRegister.ofIndex? index).map .special else some (.general index)

/-- A side is found again from its number and its sort. -/
theorem ofIndex?_isSpecial_index (side : Side) :
    ofIndex? side.isSpecial side.index = some side := by
  cases side with
  | general r => rfl
  | special r => simp [ofIndex?, isSpecial, index, SpecialRegister.ofIndex?_index]

end Side

/-- The operations that combine two registers into a third. -/
inductive AluOp
  /-- The sum modulo 256. -/
  | add
  /-- Reserved for the sum of two floating-point numbers; it does nothing. -/
  | addFloat
  | or
  | and
  | xor
  deriving DecidableEq

/-- The two tests that a jump can make, both against `r0`. -/
inductive JumpTest
  /-- Taken if the register equals `r0`. -/
  | equal
  /-- Taken if the register is less than `r0`. -/
  | less
  deriving DecidableEq

/-- An operation with its operands. -/
inductive Instruction
  /-- Has no effect. -/
  | noOp
  /-- Copies a memory cell into a register. -/
  | loadMem (register address : UInt8)
  /-- Puts a value into a register. -/
  | load (register value : UInt8)
  /-- Copies a register into a memory cell. -/
  | store (register address : UInt8)
  /-- Copies between general and special registers. -/
  | move (source dest : Side)
  /-- Combines two registers into `dest`. -/
  | alu (op : AluOp) (dest left right : UInt8)
  /-- Rotates a register to the right. -/
  | rotate (register amount : UInt8)
  /-- Continues at `target` if the register passes the test. -/
  | jump (test : JumpTest) (register target : UInt8)
  /-- Stops the machine. -/
  | halt
  /-- Copies a register into a port. -/
  | storePort (register port : UInt8)
  /-- Copies a port into a register. -/
  | loadPort (register port : UInt8)
  /-- A word that means nothing. -/
  | unknown (word : UInt16)
  deriving DecidableEq

/-- The sixteen operations, in the order of their numbers. -/
inductive Opcode
  | noOp
  | loadMem
  | load
  | store
  | move
  | add
  | addFloat
  | or
  | and
  | xor
  | rotate
  | jumpEqual
  | halt
  | storePort
  | loadPort
  | jumpLess
  deriving DecidableEq

namespace Opcode

/-- All operations, each at the place of its number. -/
def all : List Opcode :=
  [.noOp, .loadMem, .load, .store, .move, .add, .addFloat, .or, .and, .xor, .rotate, .jumpEqual,
    .halt, .storePort, .loadPort, .jumpLess]

/-- The number of an operation, which is the most significant nibble of its words. -/
def number : Opcode → Nat
  | .noOp => 0x0
  | .loadMem => 0x1
  | .load => 0x2
  | .store => 0x3
  | .move => 0x4
  | .add => 0x5
  | .addFloat => 0x6
  | .or => 0x7
  | .and => 0x8
  | .xor => 0x9
  | .rotate => 0xA
  | .jumpEqual => 0xB
  | .halt => 0xC
  | .storePort => 0xD
  | .loadPort => 0xE
  | .jumpLess => 0xF

def ofNumber? (number : Nat) : Option Opcode :=
  all[number]?

def mnemonic : Opcode → String
  | .noOp => "NO_OP"
  | .loadMem => "LOAD_MEM"
  | .load => "LOAD"
  | .store => "STORE"
  | .move => "MOVE"
  | .add => "ADD_S"
  | .addFloat => "ADD_F"
  | .or => "OR"
  | .and => "AND"
  | .xor => "XOR"
  | .rotate => "ROTATE"
  | .jumpEqual => "JUMP"
  | .halt => "HALT"
  | .storePort => "STORE_P"
  | .loadPort => "LOAD_P"
  | .jumpLess => "JUMP_L"

def ofMnemonic? (mnemonic : String) : Option Opcode :=
  all.find? fun op => op.mnemonic == mnemonic

theorem ofNumber?_number (op : Opcode) : ofNumber? op.number = some op := by
  cases op <;> rfl

theorem number_lt (op : Opcode) : op.number < 16 := by
  cases op <;> decide

end Opcode

def AluOp.opcode : AluOp → Opcode
  | .add => .add
  | .addFloat => .addFloat
  | .or => .or
  | .and => .and
  | .xor => .xor

def JumpTest.opcode : JumpTest → Opcode
  | .equal => .jumpEqual
  | .less => .jumpLess

/-- The sign between the operands of an arithmetic or logical operation in a listing. -/
def AluOp.sign : AluOp → String
  | .add => "+"
  | .addFloat => "+"
  | .or => "|"
  | .and => "&"
  | .xor => "^"

/-- The sign of a jump's test in a listing. -/
def JumpTest.sign : JumpTest → String
  | .equal => "="
  | .less => "<"

namespace Instruction

/-- The operation of an instruction; a word that means nothing has none. -/
def opcode? : Instruction → Option Opcode
  | .noOp => some .noOp
  | .loadMem _ _ => some .loadMem
  | .load _ _ => some .load
  | .store _ _ => some .store
  | .move _ _ => some .move
  | .alu op _ _ _ => some op.opcode
  | .rotate _ _ => some .rotate
  | .jump test _ _ => some test.opcode
  | .halt => some .halt
  | .storePort _ _ => some .storePort
  | .loadPort _ _ => some .loadPort
  | .unknown _ => none

/-- The number of the instruction's operation, and 16 for a word that means nothing. -/
def tag (instruction : Instruction) : Nat :=
  match instruction.opcode? with
  | some op => op.number
  | none => 16

def mnemonic (instruction : Instruction) : String :=
  match instruction.opcode? with
  | some op => op.mnemonic
  | none => "UNKNOWN"

end Instruction

/-- How a register is written in a listing. -/
def registerText (register : UInt8) : String :=
  "r" ++ Hex.numeral 1 register.toNat

/-- How a cell is written in a listing: the letter of its space and two digits at least. -/
def cellText (space : String) (address : UInt8) : String :=
  space ++ Hex.numeral 2 address.toNat

/-- How a side of a move is written in a listing. -/
def Side.text : Side → String
  | .general register => registerText register
  | .special register => register.name

/-- The form of an instruction in listings and traces. Both jumps show their test in place of a
mnemonic. -/
def Instruction.text (instruction : Instruction) : String :=
  let name := instruction.mnemonic
  match instruction with
  | .noOp => name
  | .halt => name
  | .loadMem r m => name ++ " " ++ cellText "m" m ++ " --> " ++ registerText r
  | .load r i => name ++ " " ++ cellText "0x" i ++ " --> " ++ registerText r
  | .store r m => name ++ " " ++ registerText r ++ " --> " ++ cellText "m" m
  | .move source dest => name ++ " " ++ source.text ++ " --> " ++ dest.text
  | .alu op d a b =>
    name ++ " " ++ registerText a ++ " " ++ op.sign ++ " " ++ registerText b ++ " --> " ++
      registerText d
  | .rotate r n =>
    name ++ " " ++ registerText r ++ " by 0x" ++ Hex.numeral 1 n.toNat ++ " --> " ++ registerText r
  | .jump test r t =>
    "JUMP IF " ++ registerText r ++ " " ++ test.sign ++ " r0 TO " ++ cellText "i" t
  | .storePort r p => name ++ " " ++ registerText r ++ " --> " ++ cellText "p" p
  | .loadPort r p => name ++ " " ++ cellText "p" p ++ " --> " ++ registerText r
  | .unknown word => name ++ " 0x" ++ Hex.numeral 4 word.toNat

end ByteBasic
