import ByteBasic.Compiler.Calling
import ByteBasic.Compiler.Comparing
import ByteBasic.Source.Parser

/-!
# Compiling a line

`Build.statement` is what each statement of the language means to the compiler. A statement that
sends control elsewhere, or that control can come to, gives up every register first.
-/

namespace ByteBasic.Build

/-- Declares a variable. A variable that was declared without a value can be declared once more to
give it one. -/
def declare (name : String) (value : Option Operand) (line : Nat) : Build Unit := do
  let state ← Action.get
  match state.storage.find? name state.current, value with
  | none, value => do
    let id ← storing (Storage.declare name state.current state.codeSize)
    Action.modify fun state => { state with lastDeclaration := some line }
    match value with
    | some value => assign (.variable id) (.set value)
    | none =>
      Action.modify fun state => { state with forwardDeclared := id :: state.forwardDeclared }
  | some _, none => Action.fail (.storage (.duplicate name))
  | some id, some value =>
    if id ∈ state.forwardDeclared then do
      Action.modify fun state => { state with forwardDeclared := state.forwardDeclared.erase id }
      assign (.variable id) (.set value)
    else Action.fail (.storage (.duplicate name))

def openBranch (condition : Condition) (line : Nat) : Build Unit := do
  flush
  let name ← blockName "if"
  let state ← Action.get
  let (block, labels) := Block.newBranch state.labels name line
  Action.modify fun state => { state with labels := labels }
  compare condition .next (.label block.rejectLabel) line
  openBlock block line

/-- Opens a `while` block: its condition is where its end comes back to. -/
def openLoop (condition : Condition) (line : Nat) : Build Unit := do
  flush
  let name ← blockName "while"
  let state ← Action.get
  let (block, check, labels) := Block.newLoop state.labels name line
  Action.modify fun state => { state with labels := labels }
  emit (.label check line)
  compare condition .next (.label block.after) line
  openBlock block line

/-- Opens the other branch of the innermost block. -/
def openElse (line : Nat) : Build Unit := do
  flush
  let state ← Action.get
  match state.blocks with
  | [] => Action.fail .elseWithoutIf
  | block :: outer =>
    match block.openElse line with
    | .error error => Action.fail (.misplacedElse error)
    | .ok (block, items) => do
      Action.modify fun state => { state with blocks := block :: outer }
      emitAll items

def isFunctionBlock (block : Block) : Bool :=
  match block.kind with
  | .function _ => true
  | _ => false

/-- Closes the innermost block. After the body of a function, code goes to the global stream
again. -/
def closeBlock (line : Nat) : Build Unit := do
  flush
  let state ← Action.get
  match state.blocks with
  | [] => Action.fail .endWithoutBlock
  | block :: outer => do
    Action.modify fun state => { state with blocks := outer }
    emitAll (block.close line)
    if isFunctionBlock block then Action.modify fun state => { state with current := .global }

def returnToCaller : Build Unit := do
  let state ← Action.get
  if state.current = .global then Action.fail .returnOutsideFunction
  else do
    flush
    emit .ret

/-- Compiles a statement of the line with the given number. -/
def statement (statement : Statement) (line : Nat) : Build Unit :=
  match statement with
  | .declare name value => declare name value line
  | .assign dest update => do
    let dest ← referent (.word dest)
    assign dest update
  | .ifGoto condition label => do
    flush
    let label ← namedLabel label
    compare condition (.label label) .next line
  | .ifBlock condition => openBranch condition line
  | .loop condition => openLoop condition line
  | .otherwise => openElse line
  | .close => closeBlock line
  | .function name => defineFunction name line
  | .ret => returnToCaller
  | .goto label => do
    flush
    let label ← namedLabel label
    emit (.goto label line)
  | .label label => do
    flush
    let label ← namedLabel label
    emit (.label label line)
  | .halt => emit .halt
  | .exit code => do
    instruct (.load 0 code)
    instruct (.move (.general 0) (.special .exitCode))
    emit .halt
  | .call name arguments => call name arguments line

/-- Compiles a line; a blank one does nothing. -/
def line (text : String) (number : Nat) : Build Unit :=
  match Statement.parse text.toList with
  | .error error => Action.fail (.malformed error)
  | .ok none => pure ()
  | .ok (some parsed) => statement parsed number

end ByteBasic.Build
