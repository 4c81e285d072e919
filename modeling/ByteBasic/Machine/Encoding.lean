import ByteBasic.Machine.BitField
import ByteBasic.Machine.Instruction
import ByteBasic.Text.Decimal

/-!
# Instructions as words

Every word is four nibbles, the opcode first. After it come, most significant first:

* a register and a byte, for loads, stores and jumps;
* three registers, for the arithmetic and logical operations;
* a mode, a source and a destination, for a move: the low bit of the mode says that the source is
  special, the next one that the destination is;
* zero, a register and an amount, for a rotation;
* nothing that matters, for the operations without operands.

`Instruction.decode` is total. `Instruction.encode` refuses a register or a rotate amount that does
not fit in a nibble, and `Instruction.assemble` builds an instruction from a mnemonic and plain
numbers in the order of the fields.
-/

namespace ByteBasic

/-- The operand fields of a word. -/
inductive OperandField
  | reg
  | address
  | value
  | mode
  | src
  | dest
  | src1
  | src2
  | amount
  | target
  | port
  deriving DecidableEq

namespace OperandField

def name : OperandField → String
  | .reg => "reg"
  | .address => "address"
  | .value => "value"
  | .mode => "mode"
  | .src => "src"
  | .dest => "dest"
  | .src1 => "src1"
  | .src2 => "src2"
  | .amount => "amount"
  | .target => "target"
  | .port => "port"

/-- The bits of a field that may be used. -/
def bits : OperandField → Nat
  | .address => 8
  | .value => 8
  | .target => 8
  | .port => 8
  | .mode => 2
  | _ => 4

end OperandField

/-- The fields that an operation's operands go into, most significant first. -/
def Opcode.fields : Opcode → List OperandField
  | .noOp => []
  | .halt => []
  | .loadMem => [.reg, .address]
  | .load => [.reg, .value]
  | .store => [.reg, .address]
  | .move => [.mode, .src, .dest]
  | .add => [.dest, .src1, .src2]
  | .addFloat => [.dest, .src1, .src2]
  | .or => [.dest, .src1, .src2]
  | .and => [.dest, .src1, .src2]
  | .xor => [.dest, .src1, .src2]
  | .rotate => [.reg, .amount]
  | .jumpEqual => [.reg, .target]
  | .jumpLess => [.reg, .target]
  | .storePort => [.reg, .port]
  | .loadPort => [.reg, .port]

/-- Why no word could be made. -/
inductive EncodeError
  /-- No operation has this name. -/
  | unknownMnemonic (mnemonic : String)
  /-- The operation takes another number of operands. -/
  | operandCount (op : Opcode) (found : Nat)
  /-- The value is too wide for its field. -/
  | overflow (field : OperandField) (value : UInt16)
  /-- No special register has this number. -/
  | unknownSpecial (index : UInt8)
  deriving DecidableEq

def EncodeError.message : EncodeError → String
  | .unknownMnemonic mnemonic => "unknown mnemonic `" ++ mnemonic ++ "`"
  | .operandCount op found =>
    "`" ++ op.mnemonic ++ "` takes " ++ Decimal.numeral op.fields.length ++ " operand(s) but " ++
      Decimal.numeral found ++ " were given"
  | .overflow field value =>
    field.name ++ " operand 0x" ++ Hex.numeralLower 1 value.toNat ++ " does not fit in " ++
      Decimal.numeral field.bits ++ " bits"
  | .unknownSpecial index => "there is no special register s" ++ Hex.numeral 1 index.toNat

/-- The word of an operation with a register and a byte. -/
def byteWord (op : Opcode) (register value : UInt8) : UInt16 :=
  BitField.packWord [⟨8, value⟩, ⟨4, register⟩, ⟨4, UInt8.ofNat op.number⟩]

/-- The word of an operation with three nibbles, most significant first. -/
def nibbleWord (op : Opcode) (a b c : UInt8) : UInt16 :=
  BitField.packWord [⟨4, c⟩, ⟨4, b⟩, ⟨4, a⟩, ⟨4, UInt8.ofNat op.number⟩]

/-- The mode nibble of a move. -/
def moveMode (source dest : Side) : UInt8 :=
  (if source.isSpecial then 1 else 0) + (if dest.isSpecial then 2 else 0)

namespace Instruction

/-- The operands that have to fit in a nibble, in the order in which they are checked. -/
def nibbles : Instruction → List (OperandField × UInt8)
  | .loadMem r _ => [(.reg, r)]
  | .load r _ => [(.reg, r)]
  | .store r _ => [(.reg, r)]
  | .jump _ r _ => [(.reg, r)]
  | .storePort r _ => [(.reg, r)]
  | .loadPort r _ => [(.reg, r)]
  | .move source dest => [(.src, source.index), (.dest, dest.index)]
  | .alu _ d a b => [(.dest, d), (.src1, a), (.src2, b)]
  | .rotate r n => [(.reg, r), (.amount, n)]
  | .noOp => []
  | .halt => []
  | .unknown _ => []

/-- The first operand that does not fit in its nibble. -/
def misfit? (instruction : Instruction) : Option (OperandField × UInt8) :=
  instruction.nibbles.find? fun (field, value) =>
    !BitField.fits value.toUInt16.toBitVec field.bits

/-- The word of an instruction all of whose operands fit. -/
def word : Instruction → UInt16
  | .noOp => nibbleWord .noOp 0 0 0
  | .halt => nibbleWord .halt 0 0 0
  | .loadMem r m => byteWord .loadMem r m
  | .load r i => byteWord .load r i
  | .store r m => byteWord .store r m
  | .jump test r t => byteWord test.opcode r t
  | .storePort r p => byteWord .storePort r p
  | .loadPort r p => byteWord .loadPort r p
  | .move source dest => nibbleWord .move (moveMode source dest) source.index dest.index
  | .alu op d a b => nibbleWord op.opcode d a b
  | .rotate r n => nibbleWord .rotate 0 r n
  | .unknown w => w

/-- The word of an instruction, unless one of its operands does not fit. -/
def encode (instruction : Instruction) : Except EncodeError UInt16 :=
  match instruction.misfit? with
  | some (field, value) => .error (.overflow field value.toUInt16)
  | none => .ok instruction.word

/-- The move that a mode and two fields stand for. -/
def decodeMove? (mode source dest : UInt8) : Option Instruction :=
  if BitField.fits mode.toBitVec OperandField.mode.bits then do
    let source ← Side.ofIndex? (mode &&& 1 != 0) source
    let dest ← Side.ofIndex? (mode &&& 2 != 0) dest
    return .move source dest
  else none

/-- The instruction that a word stands for. Bits that no field uses are ignored. -/
def decode (word : UInt16) : Instruction :=
  let a := UInt8.ofNat (word.toNat / 0x100 % 0x10)
  let b := UInt8.ofNat (word.toNat / 0x10 % 0x10)
  let c := UInt8.ofNat (word.toNat % 0x10)
  let byte := word.toUInt8
  match Opcode.ofNumber? (word.toNat / 0x1000) with
  | some .noOp => .noOp
  | some .loadMem => .loadMem a byte
  | some .load => .load a byte
  | some .store => .store a byte
  | some .move => (decodeMove? a b c).getD (.unknown word)
  | some .add => .alu .add a b c
  | some .addFloat => .alu .addFloat a b c
  | some .or => .alu .or a b c
  | some .and => .alu .and a b c
  | some .xor => .alu .xor a b c
  | some .rotate => .rotate b c
  | some .jumpEqual => .jump .equal a byte
  | some .halt => .halt
  | some .storePort => .storePort a byte
  | some .loadPort => .loadPort a byte
  | some .jumpLess => .jump .less a byte
  | none => .unknown word

end Instruction

/-- The value as the content of a field, if it fits. -/
def OperandField.check (field : OperandField) (value : UInt16) : Except EncodeError UInt8 :=
  if BitField.fits value.toBitVec field.bits then .ok value.toUInt8
  else .error (.overflow field value)

/-- A side of a move from its field: the number has to fit, and a special register to exist. -/
def Side.assemble (field : OperandField) (special : Bool) (index : UInt16) :
    Except EncodeError Side := do
  let index ← field.check index
  match Side.ofIndex? special index with
  | some side => .ok side
  | none => .error (.unknownSpecial index)

/-- Checks a pair of operands in order. -/
def checkPair (first second : OperandField) (a b : UInt16) (build : UInt8 → UInt8 → Instruction) :
    Except EncodeError Instruction := do
  let a ← first.check a
  let b ← second.check b
  return build a b

/-- Checks the three registers of an arithmetic or logical operation in order. -/
def checkAlu (op : AluOp) (d a b : UInt16) : Except EncodeError Instruction := do
  let d ← OperandField.dest.check d
  let a ← OperandField.src1.check a
  let b ← OperandField.src2.check b
  return .alu op d a b

/-- The instruction of an operation whose operands are given as plain numbers, most significant
field first. -/
def Opcode.assemble (op : Opcode) (operands : List UInt16) : Except EncodeError Instruction :=
  match op, operands with
  | .noOp, [] => .ok .noOp
  | .halt, [] => .ok .halt
  | .loadMem, [r, m] => checkPair .reg .address r m .loadMem
  | .load, [r, i] => checkPair .reg .value r i .load
  | .store, [r, m] => checkPair .reg .address r m .store
  | .jumpEqual, [r, t] => checkPair .reg .target r t (.jump .equal)
  | .jumpLess, [r, t] => checkPair .reg .target r t (.jump .less)
  | .storePort, [r, p] => checkPair .reg .port r p .storePort
  | .loadPort, [r, p] => checkPair .reg .port r p .loadPort
  | .rotate, [r, n] => checkPair .reg .amount r n .rotate
  | .add, [d, a, b] => checkAlu .add d a b
  | .addFloat, [d, a, b] => checkAlu .addFloat d a b
  | .or, [d, a, b] => checkAlu .or d a b
  | .and, [d, a, b] => checkAlu .and d a b
  | .xor, [d, a, b] => checkAlu .xor d a b
  | .move, [mode, source, dest] => do
    let mode ← OperandField.mode.check mode
    let source ← Side.assemble .src (mode &&& 1 != 0) source
    let dest ← Side.assemble .dest (mode &&& 2 != 0) dest
    return .move source dest
  | op, operands => .error (.operandCount op operands.length)

/-- The instruction with a given mnemonic and operands, most significant field first. -/
def Instruction.assemble (mnemonic : String) (operands : List UInt16) :
    Except EncodeError Instruction :=
  match Opcode.ofMnemonic? mnemonic with
  | some op => op.assemble operands
  | none => .error (.unknownMnemonic mnemonic)

end ByteBasic
