import ByteBasic.Compiler.Assignment

/-!
# Functions and calls

Four functions are built in: they write to the console, rotate a variable and use the stack. All
others are defined by the program and take no arguments.
-/

namespace ByteBasic

/-- The functions that every program has. -/
inductive Builtin
  | write
  | rotate
  | toStack
  | fromStack
  deriving DecidableEq

namespace Builtin

def name : Builtin → String
  | .write => "write"
  | .rotate => "rotate"
  | .toStack => "toStack"
  | .fromStack => "fromStack"

def ofName? (name : String) : Option Builtin :=
  if name = "write" then some .write
  else if name = "rotate" then some .rotate
  else if name = "toStack" then some .toStack
  else if name = "fromStack" then some .fromStack
  else none

/-- The number of arguments of a built-in function. -/
def arity : Builtin → Nat
  | .rotate => 2
  | _ => 1

end Builtin

/-- The port that `write` stores to. -/
def consolePort : UInt8 := 0

namespace Build

/-- Writes the bytes of a string literal, of which there is not exactly one. -/
def writeText (bytes : List UInt8) : Build Unit :=
  if bytes = [] then Action.fail .emptyWrite
  else do
    let register ← storing Storage.scratch
    bytes.forM fun byte => do
      instruct (.load register.byte byte)
      instruct (.storePort register.byte consolePort)

/-- Writes the value of an operand. -/
def writeValue (operand : Operand) : Build Unit := do
  let value ← referent operand
  let register ← operandRegister value
  instruct (.storePort register.byte consolePort)

/-- Writes an operand: all bytes of a string literal, or one value. -/
def write (operand : Operand) : Build Unit :=
  match operand with
  | .text [byte] => writeValue (.text [byte])
  | .text bytes => writeText bytes
  | .word word => writeValue (.word word)

/-- The amount of a rotation, which has to be a number that fits in a nibble. -/
def rotateAmount (operand : Operand) : Build UInt8 := do
  match ← referent operand with
  | .literal amount => if amount < 16 then return amount else Action.fail .rotateAmountRange
  | _ => Action.fail .rotateAmountRange

def rotate (target amount : Operand) : Build Unit := do
  match ← referent target with
  | .variable id => do
    let amount ← rotateAmount amount
    let register ← bindForWrite id true
    instruct (.rotate register.byte amount)
    storing (Storage.markModified id)
  | _ => Action.fail .rotateNeedsVariable

def pushOperand (operand : Operand) : Build Unit := do
  let value ← referent operand
  let register ← operandRegister value
  instruct (.move (.general register.byte) (.special .stack))

/-- Pops a value into a variable or a register. -/
def popInto (operand : Operand) : Build Unit := do
  match ← referent operand with
  | .variable id => do
    let register ← bindForWrite id false
    storing (Storage.markModified id)
    instruct (.move (.special .stack) (.general register.byte))
  | .register register => do
    storing (Storage.reserve register)
    instruct (.move (.special .stack) (.general register.byte))
  | _ => Action.fail .popNeedsDestination

def callBuiltin (builtin : Builtin) (arguments : List Operand) : Build Unit :=
  match builtin, arguments with
  | .write, [operand] => write operand
  | .rotate, [target, amount] => rotate target amount
  | .toStack, [operand] => pushOperand operand
  | .fromStack, [operand] => popInto operand
  | builtin, arguments =>
    Action.fail (.argumentCount builtin.name builtin.arity arguments.length)

/-- The function of the program with a given name. -/
def function? (state : BuildState) (name : String) : Option Function :=
  state.functions.find? fun function => function.name == name

/-- Calls a function of the program. -/
def callFunction (name : String) (arguments : List Operand) (line : Nat) : Build Unit := do
  let state ← Action.get
  match function? state name with
  | none => Action.fail (.unknownFunction name)
  | some function =>
    if arguments = [] then do
      flush
      emit (.call function.main line)
    else Action.fail (.unexpectedArguments name)

/-- Calls a function by its name. -/
def call (name : String) (arguments : List Operand) (line : Nat) : Build Unit :=
  match Builtin.ofName? name with
  | some builtin => callBuiltin builtin arguments
  | none => callFunction name arguments line

/-- Opens the body of a new function: from here on code goes to its stream. -/
def defineFunction (name : String) (line : Nat) : Build Unit := do
  let state ← Action.get
  if state.current ≠ .global then Action.fail .nestedFunction
  else if (Builtin.ofName? name).isSome then Action.fail (.builtinRedefined name)
  else if (function? state name).isSome then Action.fail (.functionRedefined name)
  else do
    flush
    let state ← Action.get
    let id := state.functions.length
    let (block, labels) := Block.newFunction state.labels name id line
    Action.modify fun state =>
      { state with
        labels := labels
        functions := state.functions ++ [⟨name, block.main⟩]
        current := .function id }
    openBlock block line

end Build

end ByteBasic
