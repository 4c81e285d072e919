import ByteBasic.Code.Item
import ByteBasic.Report

/-!
# Blocks

An `if`, `while` or `function` opens a block, which its `end` closes. A block owns the labels that
its control flow goes through, and gives the items that its `else` and `end` stand for.
-/

namespace ByteBasic

/-- The number of a function, in the order of definition. -/
abbrev FunctionId := Nat

/-- What a block is, with the labels that only blocks of its sort have. -/
inductive BlockKind
  /-- An `if`, with the label of its other branch. -/
  | branch (otherwise : LabelId) (hasElse : Bool)
  /-- A `while`, with the label of its condition. -/
  | loop (check : LabelId)
  | function (id : FunctionId)
  deriving DecidableEq

structure Block where
  kind : BlockKind
  /-- The start of the body. -/
  main : LabelId
  /-- The code after the block. -/
  after : LabelId
  /-- The line that opened the block. -/
  line : Nat
  deriving DecidableEq

/-- Why an `else` is not allowed. -/
inductive ElseError
  | repeated
  | notInBranch
  deriving DecidableEq

instance : Cause ElseError where
  kind _ := .compile
  message
    | .repeated => "if statement already has an else"
    | .notInBranch => "else statement can only be used with if"

namespace Block

/-- The word that opens such a block. -/
def keyword (block : Block) : String :=
  match block.kind with
  | .branch _ _ => "if"
  | .loop _ => "while"
  | .function _ => "function"

/-- A new `if` block. Its labels are called after `name`. -/
def newBranch (labels : Labels) (name : String) (line : Nat) : Block × Labels :=
  let (otherwise, labels) := labels.fresh (name ++ ":else")
  let (main, labels) := labels.fresh (name ++ ":main")
  let (after, labels) := labels.fresh (name ++ ":end")
  (⟨.branch otherwise false, main, after, line⟩, labels)

/-- A new `while` block, with the label of its condition. -/
def newLoop (labels : Labels) (name : String) (line : Nat) : Block × LabelId × Labels :=
  let (check, labels) := labels.fresh (name ++ ":check")
  let (main, labels) := labels.fresh (name ++ ":main")
  let (after, labels) := labels.fresh (name ++ ":end")
  (⟨.loop check, main, after, line⟩, check, labels)

def newFunction (labels : Labels) (name : String) (id : FunctionId) (line : Nat) :
    Block × Labels :=
  let (main, labels) := labels.fresh ("func_" ++ name ++ ":main")
  let (after, labels) := labels.fresh ("func_" ++ name ++ ":end")
  (⟨.function id, main, after, line⟩, labels)

/-- Where a failed condition goes: to the other branch of an `if`, else behind the block. -/
def rejectLabel (block : Block) : LabelId :=
  match block.kind with
  | .branch otherwise _ => otherwise
  | _ => block.after

/-- Ends the first branch of an `if` and starts the other one. -/
def openElse (block : Block) (line : Nat) : Except ElseError (Block × List Item) :=
  match block.kind with
  | .branch otherwise false =>
    .ok ({ block with kind := .branch otherwise true },
      [.goto block.after line, .label otherwise line])
  | .branch _ true => .error .repeated
  | _ => .error .notInBranch

/-- The items that close the block. -/
def close (block : Block) (line : Nat) : List Item :=
  match block.kind with
  | .branch otherwise false => [.label otherwise line, .label block.after line]
  | .branch _ true => [.label block.after line]
  | .loop check => [.goto check line, .label block.after line]
  | .function _ => [.ret, .label block.after line]

end Block

end ByteBasic
