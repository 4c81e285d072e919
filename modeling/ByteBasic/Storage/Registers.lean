import ByteBasic.Storage.Basic

/-!
# Binding variables to registers

The operations that move variables between their slots and the registers. Each gives the
instructions that have to be executed for it, and after them every variable still has its value: a
modified variable is written back before its register is given up (`release`), and loaded only after
that (`load`).

* `load`, `writeBack`, `bind`, `release`: one variable and one register.
* `pick`, `scratch`, `reserve`: finding a register, for a variable or for a value of the statement.
* `endStatement`, `flush`: giving up what a statement needed, and everything.
-/

namespace ByteBasic.Storage

def emit (instruction : Instruction) : StorageM Unit :=
  Action.put [.code instruction]

/-- Fails if a register is held by anyone but the given variable. -/
def checkFree (id : VarId) (register : Register) : StorageM Unit := do
  let storage ← Action.get
  match storage.owner register with
  | none => pure ()
  | some owner =>
    if owner = .variable id then pure ()
    else Action.fail (.conflict register (storage.holder owner))

/-- Writes a variable's register to its slot if the two may differ. -/
def writeBack (id : VarId) : StorageM Unit := do
  let storage ← Action.get
  let var := storage.get id
  match var.register, var.modified with
  | some register, true => do
    emit (.store register.byte var.address)
    Action.modify fun storage => storage.update id fun var => { var with modified := false }
  | _, _ => pure ()

/-- Takes a register away from the variable it holds, after writing it back. Another register is not
touched. -/
def release (id : VarId) (register : Register) : StorageM Unit := do
  let storage ← Action.get
  if (storage.get id).register = some register then do
    writeBack id
    Action.modify fun storage =>
      (storage.update id fun var => { var with clearable := false, register := none }).setOwner
        register none

/-- Lets a variable's register be taken away later; until then it stays. -/
def allowEviction (id : VarId) : StorageM Unit :=
  Action.modify fun storage => storage.update id fun var => { var with clearable := true }

def forbidEviction (id : VarId) : StorageM Unit :=
  Action.modify fun storage => storage.update id fun var => { var with clearable := false }

/-- Gives a register to a variable and keeps it there. A variable that already has another register
gives that one up if `overwrite` says so, and otherwise is in its own way. -/
def bind (id : VarId) (register : Register) (overwrite : Bool) : StorageM Unit := do
  forbidEviction id
  let storage ← Action.get
  let previous := (storage.get id).register
  if previous = some register then pure ()
  else do
    checkFree id register
    match previous with
    | none => pure ()
    | some previous =>
      if overwrite then do
        release id previous
        forbidEviction id
      else Action.fail (.conflict previous (storage.holder (.variable id)))
    Action.modify fun storage =>
      (storage.update id fun var => { var with register := some register }).setOwner register
        (some (.variable id))

/-- Puts a variable's value into a register, after writing it back if need be. With `keep` the
variable is then bound to the register; without, the register only holds a copy. A variable that is
already there is left alone. -/
def load (id : VarId) (register : Register) (keep : Bool) : StorageM Unit := do
  let storage ← Action.get
  if (storage.get id).register = some register then pure ()
  else do
    checkFree id register
    if (storage.get id).modified then writeBack id
    emit (.loadMem register.byte (storage.get id).address)
    if keep then bind id register true

/-- The registers from a number on, in ascending order. -/
def registersFrom (start : Nat) : List Register :=
  (List.finRange 16).filter fun register => start ≤ register.val

/-- Whether a register is held by a variable that may lose it, and by which. -/
def evictable? (storage : Storage) (register : Register) : Option VarId :=
  match storage.owner register with
  | some (.variable id) => if (storage.get id).clearable then some id else none
  | _ => none

/-- The lowest free register from a number on. -/
def freeFrom? (storage : Storage) (start : Nat) : Option Register :=
  (registersFrom start).find? fun register => (storage.owner register).isNone

/-- The lowest register from a number on whose variable may lose it, with that variable. -/
def evictableFrom? (storage : Storage) (start : Nat) : Option (Register × VarId) :=
  (registersFrom start).findSome? fun register =>
    (storage.evictable? register).map fun id => (register, id)

/-- A register from a number on that nobody holds: a free one if there is one, and otherwise one
whose variable may lose it. -/
def pick (start : Nat) : StorageM Register := do
  let storage ← Action.get
  match storage.freeFrom? start with
  | some register => pure register
  | none =>
    match storage.evictableFrom? start with
    | some (register, id) => do
      Action.put [.note ⟨.trace, "evicting " ++ (storage.get id).name ++ " from r" ++
        Hex.numeral 1 register.val⟩]
      release id register
      pure register
    | none => Action.fail .exhausted

/-- Notes that a register is needed until the end of the statement. -/
def hold (register : Register) : StorageM Unit :=
  Action.modify fun storage => storage.setOwner register (some .temporary)

/-- A register other than `r0` for a value that is needed until the end of the statement. -/
def scratch : StorageM Register := do
  let register ← pick 1
  hold register
  pure register

/-- Holds a register that the source names until the end of the statement. A variable in it is
written back and loses it. -/
def reserve (register : Register) : StorageM Unit := do
  let storage ← Action.get
  match storage.owner register with
  | some (.variable id) => release id register
  | _ => pure ()
  hold register

/-- Gives up what one register holds for the statement: a value goes, a variable may go. -/
def endStatementAt (register : Register) (storage : Storage) : Storage :=
  match storage.owner register with
  | some .temporary => storage.setOwner register none
  | some (.variable id) => storage.update id fun var => { var with clearable := true }
  | none => storage

/-- Gives up the values of the statement and lets every variable lose its register. -/
def endStatement : StorageM Unit :=
  Action.modify fun storage =>
    (List.finRange 16).foldl (fun storage register => endStatementAt register storage) storage

/-- Gives up one register, after writing back the variable in it. -/
def flushAt (register : Register) : StorageM Unit := do
  let storage ← Action.get
  match storage.owner register with
  | some (.variable id) => release id register
  | some .temporary => Action.modify fun storage => storage.setOwner register none
  | none => pure ()

/-- Gives up every register, after writing back the variables in them, so that nothing is held when
control goes elsewhere. -/
def flush : StorageM Unit :=
  (List.finRange 16).forM flushAt

end ByteBasic.Storage
