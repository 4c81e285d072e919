import ByteBasic.Code.Layout

/-!
# Resolving jumps

`patchAll` fills in the jumps that laying out has recorded, whose offsets are those of bytes that
there are. `resolve` does the same for jumps from anywhere. Their offsets are words of 64 bits, the
largest of which has no next one (`Overflow`), and their targets need not be labels of the table.

Where an operand has no offset or a label does not exist, there is neither a success nor a report.
What was patched before stays, as after a failure.
-/

namespace ByteBasic

/-- What comes after the largest word. -/
inductive Overflow
  /-- Nothing: adding to it stops the program. -/
  | stops
  /-- Zero. -/
  | wraps
  deriving DecidableEq

/-- A jump whose operand is to be filled in. -/
structure Jump where
  offset : UInt64
  target : LabelId
  line : Nat
  deriving DecidableEq

/-- The offset of the second byte of a jump, which is its operand. -/
def Jump.operand? (mode : Overflow) (jump : Jump) : Option Nat :=
  match mode with
  | .stops =>
    if jump.offset.toNat + 1 < UInt64.size then some (jump.offset.toNat + 1) else none
  | .wraps => some (jump.offset + 1).toNat

def Jump.fixup (jump : Jump) : Fixup :=
  ⟨jump.offset.toNat, jump.target, jump.line⟩

/-- Puts the offset of a fixup's target into a given byte. The target is looked up before the byte. -/
def Fixup.patchAt? (fixup : Fixup) (operand? : Option Nat) (labels : Labels) (lines : List String)
    (bytes : List UInt8) : Option (Except (Report LayoutError) (List UInt8)) := do
  let label ← labels.entries[fixup.target]?
  match label.offset with
  | none =>
    return .error
      ((Report.ofCause (.unresolvedJump label.name)).orLine (sourceLine lines fixup.line))
  | some offset =>
    if offset > 255 then
      return .error
        ((Report.ofCause (.distantJump label.name offset)).orLine (sourceLine lines fixup.line))
    else
      let operand ← operand?
      if operand < bytes.length then return .ok (bytes.set operand (UInt8.ofNat offset))
      else return .error (Report.ofCause (.outsideProgram fixup.offset))

/-- Patches one after the other, up to the first that fails or has no outcome, and gives the bytes
reached. -/
def patchEach {α : Type} (patch? : α → List UInt8 →
    Option (Except (Report LayoutError) (List UInt8))) :
    List α → List UInt8 → Option (Except (Report LayoutError) Unit) × List UInt8
  | [], bytes => (some (.ok ()), bytes)
  | item :: items, bytes =>
    match patch? item bytes with
    | none => (none, bytes)
    | some (.error report) => (some (.error report), bytes)
    | some (.ok bytes) => patchEach patch? items bytes

/-- Fills in the operands of jumps in order. -/
def resolve (mode : Overflow) (labels : Labels) (lines : List String) :
    List Jump → List UInt8 → Option (Except (Report LayoutError) Unit) × List UInt8 :=
  patchEach fun jump => jump.fixup.patchAt? (jump.operand? mode) labels lines

end ByteBasic
