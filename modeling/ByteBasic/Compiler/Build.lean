import ByteBasic.Compiler.Error
import ByteBasic.Storage.Registers

/-!
# Building code

The compiler goes through the source once, line by line, and puts out items. Every item belongs to a
stream, which is the global code or the body of one function, and is kept together with the state it
was put out in: its stream is the one that was open then, and what was held in registers at the time
can be read off it.

* `BuildState`: what the compiler knows at a point of the source.
* `Emission`: an item with that state, and whether it serves a variable or the statement itself.
* `Build`: a step of compiling.
-/

namespace ByteBasic

/-- A function of the program: its name and the label of its body. -/
structure Function where
  name : String
  main : LabelId
  deriving DecidableEq

/-- What the compiler knows at a point of the source. -/
structure BuildState where
  storage : Storage
  labels : Labels
  /-- The functions defined so far, each at the place of its number. -/
  functions : List Function
  /-- The stream that code goes to, which is also the scope of names. -/
  current : Scope
  /-- The open blocks, the innermost first. -/
  blocks : List Block
  /-- The number of `if` and `while` blocks opened so far. -/
  blockCount : Nat
  /-- The bytes that the items put out so far take, in all streams. -/
  codeSize : Nat
  /-- The variables declared without a value that may still get one by a second declaration. -/
  forwardDeclared : List VarId
  /-- The line of the newest declaration, which has the lowest slot. -/
  lastDeclaration : Option Nat
  deriving DecidableEq

def BuildState.initial : BuildState where
  storage := .empty
  labels := .empty
  functions := []
  current := .global
  blocks := []
  blockCount := 0
  codeSize := 0
  forwardDeclared := []
  lastDeclaration := none

/-- What an item is put out for. -/
inductive Origin
  /-- Moving a variable between its slot and a register. -/
  | variable
  /-- What the statement itself says. -/
  | statement
  deriving DecidableEq

/-- An item and the state it was put out in. -/
structure Emission where
  state : BuildState
  item : Item
  origin : Origin
  deriving DecidableEq

def Emission.stream (emission : Emission) : Scope :=
  emission.state.current

/-- What compiling puts out. -/
inductive BuildEvent
  | code (emission : Emission)
  | note (note : Note)
  deriving DecidableEq

def BuildEvent.emission? : BuildEvent → Option Emission
  | .code e => some e
  | .note _ => none

def BuildEvent.note? : BuildEvent → Option Note
  | .code _ => none
  | .note n => some n

/-- A step of compiling. -/
abbrev Build := Action CompileError BuildState BuildEvent

namespace Build

variable {α : Type}

/-- Puts out an item of the statement into the current stream. -/
def emit (item : Item) : Build Unit :=
  fun state =>
    ⟨.ok (), { state with codeSize := state.codeSize + item.size },
      [.code ⟨state, item, .statement⟩]⟩

def instruct (instruction : Instruction) : Build Unit :=
  emit (.instruction instruction)

def emitAll (items : List Item) : Build Unit :=
  items.forM emit

/-- What an operation on the storage puts out, as seen from the state it starts in. -/
def ofStorageEvent (state : BuildState) : StorageEvent → BuildEvent
  | .code instruction => .code ⟨state, .instruction instruction, .variable⟩
  | .note n => .note n

/-- The bytes of code that an operation on the storage puts out. -/
def storageSize (events : List StorageEvent) : Nat :=
  2 * (events.filterMap StorageEvent.instruction?).length

/-- Carries out an operation on the storage; its code goes into the current stream. -/
def storing (operation : StorageM α) : Build α :=
  fun state =>
    let outcome := operation.run state.storage
    ⟨outcome.result.mapError .storage,
      { state with
        storage := outcome.state
        codeSize := state.codeSize + storageSize outcome.output },
      outcome.output.map (ofStorageEvent state)⟩

/-- Gives up every register, so that nothing is held when control goes elsewhere. -/
def flush : Build Unit :=
  storing Storage.flush

/-- The label that the source knows by a name. -/
def namedLabel (name : String) : Build LabelId := do
  let state ← Action.get
  let (id, labels) := state.labels.named name
  Action.modify fun state => { state with labels := labels }
  return id

/-- The name of the next block: its keyword and the number of blocks opened before it. -/
def blockName (keyword : String) : Build String := do
  let state ← Action.get
  Action.modify fun state => { state with blockCount := state.blockCount + 1 }
  return keyword ++ Decimal.numeral state.blockCount

/-- Opens a block: its body starts here. -/
def openBlock (block : Block) (line : Nat) : Build Unit := do
  emit (.label block.main line)
  Action.modify fun state => { state with blocks := block :: state.blocks }

end Build

end ByteBasic
