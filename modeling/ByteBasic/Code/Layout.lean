import ByteBasic.Code.Item
import ByteBasic.Machine.Image
import ByteBasic.Report

/-!
# Laying out code

Items become bytes in two passes. `Layout.lower` appends the bytes of one item, places the labels it
passes and records every jump as a fixup, with an operand of zero. When all labels have their
places, `patchAll` puts the offset of each jump's target into its operand byte.

A failure of either pass leaves what was done before it.
-/

namespace ByteBasic

/-- Why code could not be laid out. -/
inductive LayoutError
  | duplicateLabel (name : String)
  /-- The offset after a call does not fit in a byte. -/
  | distantReturn (offset : Nat)
  /-- A jump to a label that is nowhere placed. -/
  | unresolvedJump (name : String)
  /-- A jump to a label whose offset does not fit in a byte. -/
  | distantJump (name : String) (offset : Nat)
  /-- A fixup whose operand is not among the bytes. -/
  | outsideProgram (offset : Nat)
  | encoding (error : EncodeError)
  deriving DecidableEq

namespace LayoutError

def kind : LayoutError → FaultKind
  | .duplicateLabel _ => .compile
  | .distantReturn _ => .compile
  | .unresolvedJump _ => .jump
  | .distantJump _ _ => .compile
  | .outsideProgram _ => .internal
  | .encoding _ => .internal

def message : LayoutError → String
  | .duplicateLabel name => "jump point \"" ++ name ++ "\" was already defined"
  | .distantReturn offset => "return address i" ++ Hex.numeral 1 offset ++ " is out of range"
  | .unresolvedJump name => "could not resolve jump point \"" ++ name ++ "\""
  | .distantJump name offset =>
    "jump point \"" ++ name ++ "\" at i" ++ Hex.numeral 1 offset ++ " is out of jump range"
  | .outsideProgram offset =>
    "jump at i" ++ Hex.numeral 2 offset ++ " lies outside the program"
  | .encoding error => error.message

instance : Cause LayoutError where
  kind := kind
  message := message

end LayoutError

/-- A jump whose operand is still to be filled in. -/
structure Fixup where
  /-- The offset of the jump; its second byte is the operand. -/
  offset : Nat
  target : LabelId
  line : Nat
  deriving DecidableEq

/-- Code laid out so far. -/
structure Layout where
  bytes : List UInt8
  labels : Labels
  fixups : List Fixup
  deriving DecidableEq

/-- A step of laying out code; a failure keeps the layout reached. -/
abbrev LayoutM := EStateM (Report LayoutError) Layout

namespace Layout

def empty (labels : Labels) : Layout :=
  ⟨[], labels, []⟩

/-- Fails with a cause that is blamed on a line. -/
def failAt (lines : List String) (line : Nat) (error : LayoutError) {α : Type} : LayoutM α :=
  throw ((Report.ofCause error).orLine (sourceLine lines line))

def append (instruction : Instruction) : LayoutM Unit :=
  match instruction.encode with
  | .ok word => modify fun layout => { layout with bytes := layout.bytes ++ bytesOfWord word }
  | .error error => throw (Report.ofCause (.encoding error))

/-- Places a label at the current end of the code. -/
def place (lines : List String) (label : LabelId) (line : Nat) : LayoutM Unit := do
  let layout ← get
  match layout.labels.define label layout.bytes.length with
  | (.ok (), labels) => set { layout with labels := labels }
  | (.error _, _) => failAt lines line (.duplicateLabel (layout.labels.name label))

theorem place_of_free {layout : Layout} {label : LabelId}
    (free : layout.labels.offset? label = none) (lines : List String) (line : Nat) :
    place lines label line layout =
      .ok () { layout with labels := (layout.labels.define label layout.bytes.length).2 } := by
  rw [place, show (get : LayoutM Layout) = fun layout => .ok layout layout from rfl]
  simp only [bind, EStateM.bind]
  rw [Labels.define_of_free _ _ free]
  rfl

theorem place_of_placed {layout : Layout} {label : LabelId} {existing : Nat}
    (placed : layout.labels.offset? label = some existing) (lines : List String) (line : Nat) :
    place lines label line layout =
      failAt lines line (.duplicateLabel (layout.labels.name label)) layout := by
  rw [place, show (get : LayoutM Layout) = fun layout => .ok layout layout from rfl]
  simp only [bind, EStateM.bind]
  rw [Labels.define_of_placed _ _ placed]

/-- Records a jump to a label and appends it with an operand of zero. -/
def jump (test : JumpTest) (register : UInt8) (target : LabelId) (line : Nat) : LayoutM Unit := do
  modify fun layout =>
    { layout with fixups := layout.fixups ++ [⟨layout.bytes.length, target, line⟩] }
  append (.jump test register 0)

/-- A new label for the code right after a comparison. -/
def joinLabel : LayoutM LabelId := do
  let layout ← get
  let (join, labels) := layout.labels.fresh ("jump_" ++ Decimal.numeral layout.labels.size)
  set { layout with labels := labels }
  return join

/-- Appends the tests of a comparison, all of which go to one label. -/
def jumpAll (tests : List JumpTest) (register : UInt8) (target : LabelId) (line : Nat) :
    LayoutM Unit :=
  tests.forM fun test => jump test register target line

/-- Appends the jump of a comparison none of whose tests was taken; going on needs none. -/
def jumpOtherwise (target : Target) (line : Nat) : LayoutM Unit :=
  match target with
  | .label label => jump .equal 0 label line
  | .next => pure ()

/-- Appends a comparison. Tests that lead to the code after it go to a label of their own, which is
placed there. -/
def compare (lines : List String) (comparison : Comparison) (register : UInt8)
    (accept reject : Target) (line : Nat) : LayoutM Unit :=
  let otherwise := comparison.verdict.opposite.pick accept reject
  match comparison.verdict.pick accept reject with
  | .label label => do
    jumpAll comparison.tests register label line
    jumpOtherwise otherwise line
  | .next => do
    let join ← joinLabel
    jumpAll comparison.tests register join line
    jumpOtherwise otherwise line
    place lines join line

/-- Appends a call: the offset after it is pushed by way of `r0`. -/
def call (lines : List String) (main : LabelId) (line : Nat) : LayoutM Unit := do
  let layout ← get
  let back := layout.bytes.length + 6
  if back > 255 then failAt lines line (.distantReturn back)
  append (.load 0 (UInt8.ofNat back))
  append (.move (.general 0) (.special .stack))
  jump .equal 0 main line

/-- Appends the bytes of an item. -/
def lower (lines : List String) (item : Item) : LayoutM Unit :=
  match item with
  | .label label line => place lines label line
  | .instruction instruction => append instruction
  | .jump test register target line => jump test register target line
  | .goto target line => jump .equal 0 target line
  | .compare comparison register accept reject line =>
    compare lines comparison register accept reject line
  | .call main line => call lines main line
  | .ret => append (.move (.special .stack) (.special .programCounter))
  | .halt => append .halt

/-- Appends the bytes of all items, up to the first that fails. -/
def lowerAll (lines : List String) (items : List Item) : LayoutM Unit :=
  items.forM (lower lines)

end Layout

/-- Puts the offset of a fixup's target into its operand byte. -/
def Fixup.patch (fixup : Fixup) (labels : Labels) (lines : List String) (bytes : List UInt8) :
    Except (Report LayoutError) (List UInt8) :=
  let name := labels.name fixup.target
  match labels.offset? fixup.target with
  | none =>
    .error ((Report.ofCause (.unresolvedJump name)).orLine (sourceLine lines fixup.line))
  | some offset =>
    if offset > 255 then
      .error ((Report.ofCause (.distantJump name offset)).orLine (sourceLine lines fixup.line))
    else if fixup.offset + 1 < bytes.length then
      .ok (bytes.set (fixup.offset + 1) (UInt8.ofNat offset))
    else .error (Report.ofCause (.outsideProgram fixup.offset))

/-- Patches the fixups in order, up to the first that fails, and gives the bytes reached. -/
def patchAll (labels : Labels) (lines : List String) :
    List Fixup → List UInt8 → Except (Report LayoutError) Unit × List UInt8
  | [], bytes => (.ok (), bytes)
  | fixup :: fixups, bytes =>
    match fixup.patch labels lines bytes with
    | .error report => (.error report, bytes)
    | .ok bytes => patchAll labels lines fixups bytes

end ByteBasic
