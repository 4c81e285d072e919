import ByteBasic.Compiler.Build

/-!
# What operands refer to

A word of the source is the name of a variable if there is one, and otherwise a number, a register,
a memory cell or a port by the way it is spelled:

* `0x` and one or two hexadecimal digits, or decimal digits of a value up to 255: a number;
* `r`, `m` or `p` and one or two hexadecimal digits: a register, a memory cell or a port.
-/

namespace ByteBasic

/-- What an operand refers to. -/
inductive Referent
  | variable (id : VarId)
  | register (register : Register)
  | memory (address : UInt8)
  | port (address : UInt8)
  | literal (value : UInt8)
  deriving DecidableEq

def Register.ofByte? (number : UInt8) : Option Register :=
  if h : number.toNat < 16 then some ⟨number.toNat, h⟩ else none

namespace Referent

def isLiteral : Referent → Bool
  | .literal _ => true
  | _ => false

/-- Whether a referent is a register, or a variable, which is worked with in one. -/
def isRegistered : Referent → Bool
  | .variable _ => true
  | .register _ => true
  | _ => false

/-- What a word that starts with the letter of a space refers to. -/
def ofCell (word : String) : List Char → Except CompileError Referent
  | 'r' :: digits =>
    match Hex.readByte? digits with
    | some number =>
      match Register.ofByte? number with
      | some r => .ok (.register r)
      | none => .error (.noSuchRegister word)
    | none => .error (.unknownValue word)
  | 'm' :: digits =>
    match Hex.readByte? digits with
    | some address => .ok (.memory address)
    | none => .error (.unknownValue word)
  | 'p' :: digits =>
    match Hex.readByte? digits with
    | some address => .ok (.port address)
    | none => .error (.unknownValue word)
  | _ => .error (.unknownValue word)

/-- The digits of a word that is spelled as a hexadecimal number. -/
def hexDigits? : List Char → Option (List Char)
  | '0' :: 'x' :: digits => some digits
  | '0' :: 'X' :: digits => some digits
  | _ => none

/-- What a word that names no variable refers to, by its spelling. -/
def ofSpelling (word : String) : Except CompileError Referent :=
  match hexDigits? word.toList with
  | some digits =>
    match Hex.readByte? digits with
    | some value => .ok (.literal value)
    | none => .error (.invalidHex word)
  | none =>
    if Decimal.isNumeral word.toList then
      match Decimal.readByte? word.toList with
      | some value => .ok (.literal value)
      | none => .error (.wideNumber word)
    else ofCell word word.toList

/-- What a word refers to in a scope: a variable of that name, else what its spelling says. -/
def ofWord (storage : Storage) (scope : Scope) (word : String) : Except CompileError Referent :=
  match storage.lookup? word scope with
  | some id => .ok (.variable id)
  | none => ofSpelling word

/-- What an operand refers to in a scope. A string literal has to be one character long. -/
def ofOperand (storage : Storage) (scope : Scope) : Operand → Except CompileError Referent
  | .word word => ofWord storage scope word
  | .text [byte] => .ok (.literal byte)
  | .text _ => .error .notOneCharacter

end Referent

/-- What an operand refers to at this point of the source. -/
def Build.referent (operand : Operand) : Build Referent := do
  let state ← Action.get
  Action.ofExcept (Referent.ofOperand state.storage state.current operand)

end ByteBasic
