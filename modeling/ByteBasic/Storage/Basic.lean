import ByteBasic.Action
import ByteBasic.Code.Block
import ByteBasic.Machine.Instruction
import ByteBasic.Note
import ByteBasic.Report

/-!
# Where variables live

Every variable has a memory slot of its own for good, counted down from the top of memory, and is
held in a register while it is worked with. This module has the tables; `Storage.Registers` has the
operations that move variables between the two.

A register has at most one owner and a variable records at most one register. The operations keep
the two tables in step: a variable records a register exactly when it owns it.
-/

namespace ByteBasic

/-- A general register. -/
abbrev Register := Fin 16

/-- The number of a register as an operand. -/
def Register.byte (register : Register) : UInt8 :=
  UInt8.ofNat register.val

@[simp] theorem Register.toNat_byte (register : Register) : register.byte.toNat = register.val := by
  have := register.isLt
  simp [Register.byte]
  omega

/-- Where a name is known: everywhere, or in one function. -/
inductive Scope
  | global
  | function (id : FunctionId)
  deriving DecidableEq

/-- The number of a variable, in the order of declaration. -/
abbrev VarId := Nat

/-- A variable, its slot and what holds for it at the moment. -/
structure Variable where
  name : String
  scope : Scope
  address : UInt8
  /-- The register that holds the variable. -/
  register : Option Register
  /-- Whether the register holds a value that the slot has not. -/
  modified : Bool
  /-- Whether the register may be taken away. -/
  clearable : Bool
  deriving DecidableEq

def Variable.new (name : String) (scope : Scope) (address : UInt8) : Variable :=
  ⟨name, scope, address, none, false, false⟩

/-- Who holds a register. -/
inductive Owner
  | variable (id : VarId)
  /-- A value that is needed until the end of the statement. -/
  | temporary
  deriving DecidableEq

/-- The variables, each at the place of its number, and the owners of the registers. -/
structure Storage where
  vars : List Variable
  owners : Vector (Option Owner) 16
  deriving DecidableEq

/-- Who is in the way, as an error message calls it. -/
inductive Holder
  | variable (name : String)
  | temporary
  deriving DecidableEq

/-- Why a request cannot be met. -/
inductive StorageError
  | conflict (register : Register) (holder : Holder)
  /-- Every register is held and none may be taken away. -/
  | exhausted
  | outOfMemory (name : String)
  | duplicate (name : String)
  deriving DecidableEq

namespace StorageError

def kind : StorageError → FaultKind
  | .conflict _ _ => .register
  | .exhausted => .register
  | .outOfMemory _ => .compile
  | .duplicate _ => .compile

/-- The wording for a holder. -/
def holderText : Holder → String
  | .variable name => "variable " ++ name
  | .temporary => "a temporary value"

def message : StorageError → String
  | .conflict register holder =>
    "register r" ++ Hex.numeral 1 register.val ++ " is already in use by " ++ holderText holder
  | .exhausted => "could not load value into register, none free"
  | .outOfMemory name => "out of memory addresses for variable " ++ name
  | .duplicate name => "variable with name " ++ name ++ " already exists in this scope"

instance : Cause StorageError where
  kind := kind
  message := message

end StorageError

/-- What an operation on the storage puts out. -/
inductive StorageEvent
  /-- An instruction that has to be executed at this point. -/
  | code (instruction : Instruction)
  | note (note : Note)
  deriving DecidableEq

/-- The instruction of an event that is one. -/
def StorageEvent.instruction? : StorageEvent → Option Instruction
  | .code i => some i
  | .note _ => none

/-- The note of an event that is one. -/
def StorageEvent.note? : StorageEvent → Option Note
  | .code _ => none
  | .note n => some n

/-- An operation on the storage. -/
abbrev StorageM := Action StorageError Storage StorageEvent

namespace Storage

def empty : Storage :=
  ⟨[], Vector.replicate 16 none⟩

/-- A variable by its number; a number that was never given out reads as a variable that is held
nowhere. -/
def get (storage : Storage) (id : VarId) : Variable :=
  storage.vars[id]?.getD (Variable.new "" .global 0)

/-- Changes a variable. -/
def update (storage : Storage) (id : VarId) (f : Variable → Variable) : Storage :=
  { storage with vars := storage.vars.modify id f }

/-- The owner of a register. -/
def owner (storage : Storage) (register : Register) : Option Owner :=
  storage.owners[register]

/-- Changes the owner of a register. -/
def setOwner (storage : Storage) (register : Register) (owner : Option Owner) : Storage :=
  { storage with owners := storage.owners.set register owner }

theorem get_update_self (storage : Storage) {id : VarId} (h : id < storage.vars.length)
    (f : Variable → Variable) : (storage.update id f).get id = f (storage.get id) := by
  simp [get, update, h]

theorem get_update_of_ne (storage : Storage) {id other : VarId} (h : id ≠ other)
    (f : Variable → Variable) : (storage.update id f).get other = storage.get other := by
  simp [get, update, h]

@[simp] theorem owner_update (storage : Storage) (id : VarId) (f : Variable → Variable)
    (register : Register) : (storage.update id f).owner register = storage.owner register := rfl

@[simp] theorem get_setOwner (storage : Storage) (register : Register) (owner : Option Owner)
    (id : VarId) : (storage.setOwner register owner).get id = storage.get id := rfl

@[simp] theorem owner_setOwner_self (storage : Storage) (register : Register)
    (owner : Option Owner) : (storage.setOwner register owner).owner register = owner := by
  simp [Storage.owner, setOwner]

theorem owner_setOwner_of_ne (storage : Storage) {register other : Register}
    (h : register ≠ other) (owner : Option Owner) :
    (storage.setOwner register owner).owner other = storage.owner other := by
  have hne : register.val ≠ other.val := fun e => h (Fin.ext e)
  simp [Storage.owner, setOwner, hne]

/-- The variable of a name that is declared in exactly this scope. -/
def find? (storage : Storage) (name : String) (scope : Scope) : Option VarId :=
  storage.vars.findIdx? fun var => var.scope == scope && var.name == name

/-- The variable that a name means in a scope: a local one, else a global one. -/
def lookup? (storage : Storage) (name : String) (scope : Scope) : Option VarId :=
  match storage.find? name scope with
  | some id => some id
  | none => storage.find? name .global

/-- The lowest slot given out. -/
def lowestAddress? (storage : Storage) : Option UInt8 :=
  (storage.vars.map Variable.address).min?

/-- The slot of the next variable: slots count down from the top of memory. -/
def nextAddress (storage : Storage) : Nat :=
  255 - storage.vars.length

/-- How an error message calls an owner. -/
def holder (storage : Storage) : Owner → Holder
  | .variable id => .variable (storage.get id).name
  | .temporary => .temporary

/-- Declares a variable. Its slot has to lie beyond the `codeSize` bytes of code so far. -/
def declare (name : String) (scope : Scope) (codeSize : Nat) : StorageM VarId := do
  let storage ← Action.get
  if (storage.find? name scope).isSome then Action.fail (.duplicate name)
  else if codeSize < storage.nextAddress then do
    let address := UInt8.ofNat storage.nextAddress
    Action.put
      [.note ⟨.trace, "declared " ++ name ++ " at m" ++ Hex.numeral 2 storage.nextAddress⟩]
    Action.modify fun storage =>
      { storage with vars := storage.vars ++ [Variable.new name scope address] }
    return storage.vars.length
  else Action.fail (.outOfMemory name)

/-- Notes that a variable's register holds a value that its slot has not. -/
def markModified (id : VarId) : StorageM Unit :=
  Action.modify fun storage => storage.update id fun var => { var with modified := true }

end Storage

end ByteBasic
