import ByteBasic.Source.Token

/-!
# Statements

What one line of a program says. Names are not resolved here: a word may turn out to be a variable,
a register, a memory cell, a port or a number.
-/

namespace ByteBasic

/-- A value as it is written in the source. -/
inductive Operand
  | word (text : String)
  /-- A string literal with its escapes decoded. -/
  | text (bytes : List UInt8)
  deriving DecidableEq

/-- The operations of an assignment. -/
inductive BinaryOp
  | add
  | and
  | or
  | xor
  deriving DecidableEq

/-- The six ways to compare two bytes, both unsigned. -/
inductive Comparison
  | equal
  | notEqual
  | less
  | lessEqual
  | greater
  | greaterEqual
  deriving DecidableEq

/-- The comparison of two operands. -/
structure Condition where
  left : Operand
  comparison : Comparison
  right : Operand
  deriving DecidableEq

/-- What an assignment gives its destination. -/
inductive Update
  /-- The value of the source. -/
  | set (source : Operand)
  /-- The result of an operation on two operands. -/
  | combine (left : Operand) (op : BinaryOp) (right : Operand)
  /-- The result of an operation on the destination itself and the source. -/
  | compound (op : BinaryOp) (source : Operand)
  deriving DecidableEq

/-- What a line says. -/
inductive Statement
  /-- Declares a variable, with its first value if one is given. -/
  | declare (name : String) (value : Option Operand)
  | assign (dest : String) (update : Update)
  /-- Opens a block that runs only if the condition holds. -/
  | ifBlock (condition : Condition)
  /-- Jumps to a label if the condition holds. -/
  | ifGoto (condition : Condition) (label : String)
  /-- Opens the other branch of an `if` block. -/
  | otherwise
  /-- Closes the innermost open block. -/
  | close
  /-- Opens a block that runs as long as the condition holds. -/
  | loop (condition : Condition)
  /-- Opens the body of a function. -/
  | function (name : String)
  /-- Goes back to the caller of the function. -/
  | ret
  | goto (label : String)
  | label (label : String)
  | halt
  /-- Sets the exit code and halts. -/
  | exit (code : UInt8)
  | call (name : String) (arguments : List Operand)
  deriving DecidableEq

namespace Comparison

/-- The same test with its operands exchanged. -/
def swapped : Comparison → Comparison
  | .equal => .equal
  | .notEqual => .notEqual
  | .less => .greater
  | .lessEqual => .greaterEqual
  | .greater => .less
  | .greaterEqual => .lessEqual

/-- Whether two bytes compare so. -/
def holds : Comparison → UInt8 → UInt8 → Bool
  | .equal, a, b => a == b
  | .notEqual, a, b => a != b
  | .less, a, b => a < b
  | .lessEqual, a, b => a ≤ b
  | .greater, a, b => b < a
  | .greaterEqual, a, b => b ≤ a

theorem swapped_swapped (comparison : Comparison) : comparison.swapped.swapped = comparison := by
  cases comparison <;> rfl

/-- Exchanging the operands and turning the comparison round is the same test. -/
theorem holds_swapped (comparison : Comparison) (a b : UInt8) :
    comparison.swapped.holds a b = comparison.holds b a := by
  cases comparison <;> simp [swapped, holds, Bool.beq_comm, bne]

def ofSymbol? : Source.Symbol → Option Comparison
  | .equalEqual => some .equal
  | .notEqual => some .notEqual
  | .less => some .less
  | .lessEqual => some .lessEqual
  | .greater => some .greater
  | .greaterEqual => some .greaterEqual
  | _ => none

/-- The comparison with exactly this text. -/
def ofText? (text : String) : Option Comparison :=
  (Source.Symbol.ofText? text).bind ofSymbol?

end Comparison

def BinaryOp.ofSymbol? : Source.Symbol → Option BinaryOp
  | .plus => some .add
  | .and => some .and
  | .or => some .or
  | .xor => some .xor
  | _ => none

def BinaryOp.ofCompound? : Source.Symbol → Option BinaryOp
  | .plusEqual => some .add
  | .andEqual => some .and
  | .orEqual => some .or
  | .xorEqual => some .xor
  | _ => none

end ByteBasic
