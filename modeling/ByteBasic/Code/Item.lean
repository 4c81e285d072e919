import ByteBasic.Code.Label
import ByteBasic.Machine.Instruction
import ByteBasic.Source.Statement

/-!
# Items of code

Between statements and bytes, code is a list of items: instructions, and the jumps, calls and labels
whose offsets are not known yet. How many bytes an item takes is known from the item alone
(`Item.size`).

The machine can only test whether a register is equal to or less than `r0`. A comparison is decided
by one or two such tests that all go the same way, and goes the other way when none of them is taken
(`Comparison.tests`, `Comparison.verdict`).
-/

namespace ByteBasic

/-- The two ways that a comparison can come out. -/
inductive Verdict
  | accept
  | reject
  deriving DecidableEq

def Verdict.opposite : Verdict → Verdict
  | .accept => .reject
  | .reject => .accept

/-- The tests of `r` against `r0`, in order, that decide how `r` compares with `r0`. -/
def Comparison.tests : Comparison → List JumpTest
  | .equal => [.equal]
  | .notEqual => [.equal]
  | .less => [.less]
  | .lessEqual => [.less, .equal]
  | .greater => [.less, .equal]
  | .greaterEqual => [.less]

/-- How the comparison comes out when one of its tests is taken. -/
def Comparison.verdict : Comparison → Verdict
  | .equal => .accept
  | .notEqual => .reject
  | .less => .accept
  | .lessEqual => .accept
  | .greater => .reject
  | .greaterEqual => .reject

/-- Where a comparison goes. -/
inductive Target
  | label (label : LabelId)
  /-- The code right after the comparison. -/
  | next
  deriving DecidableEq

def Verdict.pick (verdict : Verdict) (accept reject : Target) : Target :=
  match verdict with
  | .accept => accept
  | .reject => reject

/-- A piece of code whose offset is not known yet. Every jump and label remembers the number of the
line it comes from. -/
inductive Item
  /-- Places a label. -/
  | label (label : LabelId) (line : Nat)
  | instruction (instruction : Instruction)
  /-- Jumps to a label if the register passes the test. -/
  | jump (test : JumpTest) (register : UInt8) (target : LabelId) (line : Nat)
  /-- Jumps to a label. -/
  | goto (target : LabelId) (line : Nat)
  /-- Goes one way if the register compares so with `r0`, and the other way if not. -/
  | compare (comparison : Comparison) (register : UInt8) (accept reject : Target) (line : Nat)
  /-- Pushes the offset of the item after it and jumps to a label. -/
  | call (main : LabelId) (line : Nat)
  /-- Goes to the offset popped from the stack. -/
  | ret
  | halt
  deriving DecidableEq

/-- Whether a comparison has to jump when none of its tests is taken. -/
def Target.isLabel : Target → Bool
  | .label _ => true
  | .next => false

/-- The number of words that an item takes. -/
def Item.words : Item → Nat
  | .label _ _ => 0
  | .instruction _ => 1
  | .jump _ _ _ _ => 1
  | .goto _ _ => 1
  | .ret => 1
  | .halt => 1
  | .call _ _ => 3
  | .compare comparison _ accept reject _ =>
    comparison.tests.length +
      if (comparison.verdict.opposite.pick accept reject).isLabel then 1 else 0

/-- The number of bytes that an item takes. -/
def Item.size (item : Item) : Nat :=
  2 * item.words

end ByteBasic
