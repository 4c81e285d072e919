import ByteBasic.Compiler.Calling
import ByteBasic.Source.Parser
import ByteBasic.Text.Lines

/-!
# The meaning of programs

A program can be run line by line, without registers, slots or code. Its state is the number of the
next line, one byte for every variable, the lines to which pending calls go back, and what was
written. Lines are counted from zero.

What a name means and where a block ends can be read off the lines above: `Outline` is what is known
at a line. Variables are numbered in the order of their declaration, wherever they are declared, and
keep their bytes for the whole run.

`step` runs one line. It gives no state where the meaning of a program ends:

* behind the last line;
* at a return when no call is pending, and at a call when `callLimit` calls are;
* at a name or an operand that is no variable, number or character, and at a label or block that does
  not exist.
-/

namespace ByteBasic

/-- The result of an operation; addition wraps. -/
def BinaryOp.apply : BinaryOp → UInt8 → UInt8 → UInt8
  | .add, a, b => a + b
  | .and, a, b => a &&& b
  | .or, a, b => a ||| b
  | .xor, a, b => a ^^^ b

namespace Source

/-- The number of calls that can be pending at a time. -/
def callLimit : Nat := 256

/-- A byte turned to the right by one bit. -/
def turned (byte : UInt8) : UInt8 :=
  byte >>> 1 ||| byte <<< 7

/-- What each line of a program says; a blank line says nothing. -/
abbrev Program := List (Option Statement)

/-- The program of a source, if every line can be read. -/
def program (lines : List String) : Except SyntaxError Program :=
  lines.mapM fun line => Statement.parse line.toList

/-! ## What is known at a line -/

/-- What opens a block. -/
inductive Opener
  | branch
  | loop
  | function
  deriving DecidableEq

/-- What is known at a line from the lines above it. -/
structure Outline where
  /-- The variables declared so far, each at the place of its number. -/
  names : List (String × Scope)
  /-- The functions defined so far, each at the place of its number, with the line of its definition. -/
  functions : List (String × Nat)
  scope : Scope
  /-- The open blocks with their first lines, the innermost first. -/
  blocks : List (Opener × Nat)
  deriving DecidableEq

namespace Outline

def empty : Outline :=
  ⟨[], [], .global, []⟩

/-- The variable of a name that is declared in exactly this scope. -/
def find? (outline : Outline) (name : String) (scope : Scope) : Option VarId :=
  outline.names.findIdx? fun (known, place) => place == scope && known == name

/-- The variable that a name means: a local one, else a global one. -/
def lookup? (outline : Outline) (name : String) : Option VarId :=
  match outline.find? name outline.scope with
  | some id => some id
  | none => outline.find? name .global

/-- Adds a variable to the scope, if it is new there. -/
def declare (outline : Outline) (name : String) : Outline :=
  match outline.find? name outline.scope with
  | some _ => outline
  | none => { outline with names := outline.names ++ [(name, outline.scope)] }

def push (outline : Outline) (opener : Opener) (line : Nat) : Outline :=
  { outline with blocks := (opener, line) :: outline.blocks }

/-- Closes the innermost block; after a function, names are global again. -/
def pop (outline : Outline) : Outline :=
  match outline.blocks with
  | [] => outline
  | (opener, _) :: outer =>
    { outline with
      blocks := outer
      scope := if opener = .function then .global else outline.scope }

/-- What is known behind a line. -/
def advance (outline : Outline) (line : Nat) : Option Statement → Outline
  | some (.declare name _) => outline.declare name
  | some (.ifBlock _) => outline.push .branch line
  | some (.loop _) => outline.push .loop line
  | some (.function name) =>
    { outline with
      functions := outline.functions ++ [(name, line)]
      scope := .function outline.functions.length }.push .function line
  | some .close => outline.pop
  | _ => outline

end Outline

namespace Program

/-- What is known at a line of a program. -/
def outline (program : Program) : Nat → Outline
  | 0 => .empty
  | line + 1 => (outline program line).advance line (program[line]?).join

/-- The first line that says something of the innermost block, which was opened at a given line. -/
def ofBlock? (program : Program) (statement : Statement) (start : Nat) : Option Nat :=
  (List.range program.length).find? fun line =>
    (program[line]?).join == some statement &&
      ((program.outline line).blocks.head?.map Prod.snd) == some start

/-- The line of a label. -/
def ofLabel? (program : Program) (name : String) : Option Nat :=
  (List.range program.length).find? fun line => (program[line]?).join == some (.label name)

end Program

/-! ## Running -/

/-- A program under way. -/
structure State where
  /-- The next line. -/
  line : Nat
  /-- The bytes of the variables. -/
  value : VarId → UInt8
  /-- The lines that pending calls go back to, the newest first. -/
  pending : List Nat
  /-- The bytes written so far. -/
  output : List UInt8
  /-- The exit code of a program that has come to its end. -/
  exitCode : Option UInt8

namespace State

def initial : State :=
  ⟨0, fun _ => 0, [], [], none⟩

def goto (state : State) (line : Nat) : State :=
  { state with line := line }

def next (state : State) : State :=
  state.goto (state.line + 1)

/-- Gives a variable a new byte. -/
def set (state : State) (id : VarId) (byte : UInt8) : State :=
  { state with value := fun other => if other = id then byte else state.value other }

def write (state : State) (bytes : List UInt8) : State :=
  { state with output := state.output ++ bytes }

def halt (state : State) (code : UInt8) : State :=
  { state with exitCode := some code }

/-- Goes back to the line after the newest call. -/
def back (state : State) : Option State :=
  match state.pending with
  | [] => none
  | line :: rest => some { state with line := line, pending := rest }

/-- Goes to a function, to come back to the next line. -/
def enter (state : State) (line : Nat) : Option State :=
  if state.pending.length < callLimit then
    some { state with line := line, pending := (state.line + 1) :: state.pending }
  else none

end State

namespace Outline

/-- The byte of an operand: that of a variable, a number or a character. -/
def eval? (outline : Outline) (state : State) : Operand → Option UInt8
  | .word word =>
    match outline.lookup? word with
    | some id => some (state.value id)
    | none =>
      match Referent.ofSpelling word with
      | .ok (.literal byte) => some byte
      | _ => none
  | .text [byte] => some byte
  | .text _ => none

/-- Whether a condition holds. -/
def holds? (outline : Outline) (state : State) (condition : Condition) : Option Bool := do
  let left ← outline.eval? state condition.left
  let right ← outline.eval? state condition.right
  return condition.comparison.holds left right

/-- The new byte of a variable under an update. -/
def updated? (outline : Outline) (state : State) (id : VarId) : Update → Option UInt8
  | .set source => outline.eval? state source
  | .combine left op right => do
    let left ← outline.eval? state left
    let right ← outline.eval? state right
    return op.apply left right
  | .compound op source => do
    let right ← outline.eval? state source
    return op.apply (state.value id) right

def assign (outline : Outline) (state : State) (name : String) (update : Update) :
    Option State := do
  let id ← outline.lookup? name
  let byte ← outline.updated? state id update
  return (state.set id byte).next

/-- The bytes that a write of an operand writes. -/
def written? (outline : Outline) (state : State) : Operand → Option (List UInt8)
  | .text bytes => some bytes
  | .word word => (outline.eval? state (.word word)).map fun byte => [byte]

/-- Runs a call. A rotation turns by one bit, whatever its amount. -/
def call (outline : Outline) (state : State) (name : String) (arguments : List Operand) :
    Option State :=
  match Builtin.ofName? name, arguments with
  | some .write, [operand] => (outline.written? state operand).map fun bytes =>
      (state.write bytes).next
  | some .rotate, [.word target, _] => (outline.lookup? target).map fun id =>
      (state.set id (turned (state.value id))).next
  | none, [] => do
    let (_, line) ← outline.functions.find? fun (known, _) => known == name
    state.enter (line + 1)
  | _, _ => none

end Outline

namespace Program

/-- The line behind the `end` of a block. -/
def behind? (program : Program) (start : Nat) : Option Nat :=
  (program.ofBlock? .close start).map (· + 1)

/-- The line that a failed `if` goes on with: the first of its other branch, if it has one. -/
def otherwise? (program : Program) (start : Nat) : Option Nat :=
  match program.ofBlock? .otherwise start with
  | some line => some (line + 1)
  | none => program.behind? start

def perform (program : Program) (state : State) (statement : Statement) : Option State :=
  let outline := program.outline state.line
  match statement with
  | .declare _ none => state.next
  | .declare name (some value) => (outline.declare name).assign state name (.set value)
  | .assign name update => outline.assign state name update
  | .ifGoto condition label => do
    if ← outline.holds? state condition then
      let line ← program.ofLabel? label
      return state.goto (line + 1)
    else return state.next
  | .ifBlock condition => do
    if ← outline.holds? state condition then return state.next
    else return state.goto (← program.otherwise? state.line)
  | .loop condition => do
    if ← outline.holds? state condition then return state.next
    else return state.goto (← program.behind? state.line)
  | .otherwise => do
    let (_, start) ← outline.blocks.head?
    return state.goto (← program.behind? start)
  | .close =>
    match outline.blocks.head? with
    | some (.branch, _) => state.next
    | some (.loop, start) => state.goto start
    | some (.function, _) => state.back
    | none => none
  | .function _ => do
    return state.goto (← program.behind? state.line)
  | .ret => state.back
  | .goto label => do
    let line ← program.ofLabel? label
    return state.goto (line + 1)
  | .label _ => state.next
  | .halt => state.halt 0
  | .exit code => state.halt code
  | .call name arguments => outline.call state name arguments

def step (program : Program) (state : State) : Option State :=
  match state.exitCode, program[state.line]? with
  | none, some none => state.next
  | none, some (some statement) => program.perform state statement
  | _, _ => none

def runFor (program : Program) : Nat → State → Option State
  | 0, state => some state
  | count + 1, state => (program.step state).bind (program.runFor count)

end Program

end Source

end ByteBasic
