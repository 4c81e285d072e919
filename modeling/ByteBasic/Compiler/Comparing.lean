import ByteBasic.Compiler.Assignment

/-!
# Conditions

The machine compares a register with `r0`. A condition therefore puts one of its sides into `r0`,
unless it is there already, and compares the other side with it; if the left side is the one in
`r0`, the comparison is turned round.
-/

namespace ByteBasic.Build

/-- The register of the left side of a condition. `r0` is left to the right side if that is where it
is. -/
def leftRegister (left right : Referent) : Build Register :=
  match left with
  | .register register => return register
  | _ =>
    if right = .register 0 then do
      let register ← storing (Storage.pick 1)
      copyInto left register
      return register
    else do
      copyInto left 0
      return 0

/-- The register of the right side of a condition, given that of the left. -/
def rightRegister (first : Register) (right : Referent) : Build Register :=
  match right with
  | .register register => return register
  | _ =>
    if first = 0 then do
      let register ← storing (Storage.pick 1)
      copyInto right register
      return register
    else do
      copyInto right 0
      return 0

/-- Puts out a condition, with where to go if it holds and where if not. -/
def compare (condition : Condition) (accept reject : Target) (line : Nat) : Build Unit := do
  let left ← referent condition.left
  let right ← referent condition.right
  if left.isLiteral && right.isLiteral then Action.fail .literalComparison
  else do
    [left, right].forM reserveNamed
    let first ← leftRegister left right
    let second ← rightRegister first right
    if first = 0 then
      emit (.compare condition.comparison.swapped second.byte accept reject line)
    else if second = 0 then
      emit (.compare condition.comparison first.byte accept reject line)
    else do
      instruct (transfer first 0)
      emit (.compare condition.comparison.swapped second.byte accept reject line)

end ByteBasic.Build
