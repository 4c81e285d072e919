import ByteBasic.Compiler.Referent

/-!
# Assignments

An assignment finds a register for each of its operands, then one for its destination, and puts out
one instruction that computes the one from the others. Registers that the source names are held
first, so that no variable is put into them or left in them.
-/

namespace ByteBasic

/-- An update whose operands are resolved. -/
inductive Computation
  | set (source : Referent)
  | combine (left : Referent) (op : BinaryOp) (right : Referent)
  | compound (op : BinaryOp) (source : Referent)
  deriving DecidableEq

def Computation.operands : Computation → List Referent
  | .set source => [source]
  | .combine left _ right => [left, right]
  | .compound _ source => [source]

namespace Build

def operation (op : BinaryOp) (dest left right : Register) : Instruction :=
  match op with
  | .add => .alu .add dest.byte left.byte right.byte
  | .and => .alu .and dest.byte left.byte right.byte
  | .or => .alu .or dest.byte left.byte right.byte
  | .xor => .alu .xor dest.byte left.byte right.byte

/-- The instruction that copies one general register to another. -/
def transfer (source dest : Register) : Instruction :=
  .move (.general source.byte) (.general dest.byte)

/-- The register that holds a variable at the moment. -/
def registerOf (id : VarId) : Build (Option Register) := do
  let state ← Action.get
  return (state.storage.get id).register

/-- A register that holds the value of an operand for the rest of the statement. -/
def operandRegister : Referent → Build Register
  | .variable id => do
    match ← registerOf id with
    | some register => do
      storing (Storage.bind id register true)
      return register
    | none => do
      let register ← storing (Storage.pick 1)
      storing (Storage.load id register true)
      return register
  | .register register => return register
  | .memory address => do
    let register ← storing Storage.scratch
    instruct (.loadMem register.byte address)
    return register
  | .port address => do
    let register ← storing Storage.scratch
    instruct (.loadPort register.byte address)
    return register
  | .literal value => do
    let register ← storing Storage.scratch
    instruct (.load register.byte value)
    return register

/-- Copies the value of an operand into a register that nobody is bound to. -/
def copyInto (referent : Referent) (register : Register) : Build Unit :=
  match referent with
  | .variable id => storing (Storage.load id register false)
  | .register source => if source = register then pure () else instruct (transfer source register)
  | .memory address => instruct (.loadMem register.byte address)
  | .port address => instruct (.loadPort register.byte address)
  | .literal value => instruct (.load register.byte value)

/-- The register of a variable that is about to be written. With `keep` it starts out with the
variable's value. -/
def bindForWrite (id : VarId) (keep : Bool) : Build Register := do
  match ← registerOf id with
  | some register => do
    storing (Storage.bind id register true)
    return register
  | none => do
    let register ← storing (Storage.pick 1)
    if keep then storing (Storage.load id register true)
    else storing (Storage.bind id register true)
    return register

/-- Resolves the operands of an update, from left to right. -/
def resolve : Update → Build Computation
  | .set source => do
    let source ← referent source
    return .set source
  | .combine left op right => do
    let left ← referent left
    let right ← referent right
    return .combine left op right
  | .compound op source => do
    let source ← referent source
    return .compound op source

/-- Holds a register that the source names. -/
def reserveNamed : Referent → Build Unit
  | .register register => storing (Storage.reserve register)
  | _ => pure ()

/-- Puts out a computation into the register that `target` gives. `target` is told whether that
register has to hold the destination's value first. -/
def compute (computation : Computation) (target : Bool → Build Register) : Build Register :=
  match computation with
  | .set source =>
    if source.isRegistered then do
      let register ← operandRegister source
      let dest ← target false
      if register = dest then pure () else instruct (transfer register dest)
      return dest
    else do
      let dest ← target false
      copyInto source dest
      return dest
  | .combine left op right => do
    let a ← operandRegister left
    let b ← operandRegister right
    let dest ← target false
    instruct (operation op dest a b)
    return dest
  | .compound op source => do
    let b ← operandRegister source
    let dest ← target true
    instruct (operation op dest dest b)
    return dest

/-- A register for the new value of a cell. With `keep` it starts out with the value that `load`
puts there. -/
def cellTarget (load : Register → Instruction) (keep : Bool) : Build Register := do
  let register ← storing Storage.scratch
  if keep then instruct (load register)
  return register

/-- The register of the new value of a cell. A value that is only copied needs no other. -/
def computeCell (computation : Computation) (load : Register → Instruction) : Build Register :=
  match computation with
  | .set source => operandRegister source
  | computation => compute computation (cellTarget load)

/-- Carries out an assignment whose destination is resolved. -/
def assign (dest : Referent) (update : Update) : Build Unit := do
  let computation ← resolve update
  (dest :: computation.operands).forM reserveNamed
  match dest with
  | .variable id => do
    let _ ← compute computation (bindForWrite id)
    storing (Storage.markModified id)
  | .register register => do
    let _ ← compute computation fun _ => return register
  | .memory address => do
    let register ← computeCell computation fun register => .loadMem register.byte address
    instruct (.store register.byte address)
  | .port address => do
    let register ← computeCell computation fun register => .loadPort register.byte address
    instruct (.storePort register.byte address)
  | .literal value => Action.fail (.assignToLiteral value)

end Build

end ByteBasic
