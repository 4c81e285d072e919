import ByteBasic.Proofs.Code.Assembly
import ByteBasic.Proofs.Machine.Running

/-!
# Running items

Items can be run as they stand, before they have offsets: the place in the run is the number of the
next item, a jump goes to the item that places its label, and only a call and a return know offsets
at all. `Machine.step` runs one item and is the meaning of each sort of item.

An item has no step where the meaning of the code ends: at a halt or behind the last item, at a jump
to a label that no item places, at a store into the code itself, at a return to an offset where no
item starts, and at a push onto a full stack.

Devices see every cycle, so the machine also says how many cycles an item takes: one for a word that
is executed, and for a comparison as many as it makes tests (`Comparison.cycles`).
-/

namespace ByteBasic

/-! ## Meaning of comparisons and instructions -/

/-- The number of cycles of a comparison of `value` with `zero`: tests are made up to the first that
is taken; if none is, a label still has to be jumped to. -/
def Comparison.cycles (comparison : Comparison) (value zero : UInt8) (otherwise : Target) : Nat :=
  match comparison.tests.findIdx? fun test => Core.jumpTaken test value zero with
  | some taken => taken + 1
  | none => comparison.tests.length + if otherwise.isLabel then 1 else 0

namespace Instruction

/-- Instructions that leave the program counter alone and mean something. -/
def Plain : Instruction → Prop
  | .jump _ _ _ => False
  | .unknown _ => False
  | .move source dest =>
    source ≠ .special .programCounter ∧ dest ≠ .special .programCounter
  | _ => True

instance : DecidablePred Plain := fun instruction =>
  match instruction with
  | .jump _ _ _ => inferInstanceAs (Decidable False)
  | .unknown _ => inferInstanceAs (Decidable False)
  | .move _ _ => inferInstanceAs (Decidable (_ ∧ _))
  | .noOp | .loadMem _ _ | .load _ _ | .store _ _ | .alu _ _ _ _ | .rotate _ _ | .halt
  | .storePort _ _ | .loadPort _ _ => inferInstanceAs (Decidable True)

/-- Instructions that move bytes between general registers, memory cells and ports. None of them stops
the machine, and none depends on where it stands. -/
def Steady : Instruction → Prop
  | .move (.general _) (.general _) => True
  | .move _ _ => False
  | .jump _ _ _ => False
  | .halt => False
  | .unknown _ => False
  | _ => True

theorem Steady.plain {instruction : Instruction} (h : instruction.Steady) : instruction.Plain := by
  cases instruction with
  | move source dest =>
    cases source <;> cases dest <;> first | exact h.elim | simp [Plain]
  | jump => exact h.elim
  | halt => exact h.elim
  | unknown => exact h.elim
  | _ => trivial

/-- Whether the instruction stores below an address. -/
def storesBelow (size : Nat) : Instruction → Bool
  | .store _ address => address.toNat < size
  | _ => false

end Instruction

/-! ## Places among items -/

/-- The number of the item that places a label. -/
def labelIndex? (items : List Item) (label : LabelId) : Option Nat :=
  items.findIdx? fun
    | .label id _ => id == label
    | _ => false

/-- The number of the first item that starts at an offset; the end of the code counts as one. -/
def startIndex? (items : List Item) (offset : Nat) : Option Nat :=
  (List.range (items.length + 1)).find? fun index => itemOffset items index == offset

/-- The number of the item that a comparison goes to from the item with a given number. -/
def Target.index? (items : List Item) (index : Nat) : Target → Option Nat
  | .label id => labelIndex? items id
  | .next => some (index + 1)

section Places

variable {items : List Item} {index : Nat} {label : LabelId}

theorem getElem?_of_labelIndex? (h : labelIndex? items label = some index) :
    ∃ line, items[index]? = some (.label label line) := by
  obtain ⟨hlt, hlabel, -⟩ := List.findIdx?_eq_some_iff_getElem.1 h
  cases hitem : items[index] with
  | label id line =>
    rw [hitem] at hlabel
    refine ⟨line, ?_⟩
    rw [List.getElem?_eq_getElem hlt, hitem, eq_of_beq hlabel]
  | _ =>
    rw [hitem] at hlabel
    cases hlabel

/-- The first item that places a label is not behind any other that does. -/
theorem labelIndex?_le {line : Nat} (h : items[index]? = some (.label label line)) :
    ∃ first ≤ index, labelIndex? items label = some first := by
  obtain ⟨hlt, hitem⟩ := List.getElem?_eq_some_iff.1 h
  cases hfirst : labelIndex? items label with
  | none =>
    have hno := List.findIdx?_eq_none_iff.1 hfirst _ (List.mem_of_getElem? h)
    simp at hno
  | some first =>
    refine ⟨first, Nat.le_of_not_lt fun hbefore => ?_, rfl⟩
    obtain ⟨_, _, hall⟩ := List.findIdx?_eq_some_iff_getElem.1 hfirst
    have hno := hall index hbefore
    rw [hitem] at hno
    simp at hno

end Places

/-! ## Steps -/

/-- A processor that runs items. The number of the next item is its program counter; the one of the
processor is not used. -/
structure Machine (δ : Type) where
  index : Nat
  processor : Processor δ

namespace Machine

variable {δ : Type} [Device δ]

def push (value : UInt8) (core : Core) : Core × Option StopReason :=
  core.writeSide (.special .stack) value

/-- The byte on top of the stack; below the last one there are zeros. -/
def top (core : Core) : UInt8 :=
  core.stack.headD 0

def pop (core : Core) : Core × Option StopReason :=
  ({ core with stack := core.stack.tail }, none)

omit [Device δ] in
/-- The machine at an item with a processor that has not just overflowed its stack. -/
def continueAt (index : Nat) (processor : Processor δ) : Option (Machine δ) :=
  if processor.status = .halted .stackOverflow then none else some ⟨index, processor⟩

/-- Runs one item of code that takes up the first `size` bytes of memory. -/
def perform (items : List Item) (size : Nat) (machine : Machine δ) : Item → Option (Machine δ)
  | .label _ _ => some { machine with index := machine.index + 1 }
  | .instruction i =>
    if i.storesBelow size then none
    else continueAt (machine.index + 1)
      (machine.processor.during (Core.execute machine.processor.config.rotate i))
  | .jump test register target _ => do
    let taken := Core.jumpTaken test (machine.processor.core.reg register)
      (machine.processor.core.reg 0)
    let index ← (if taken then Target.label target else .next).index? items machine.index
    return ⟨index, machine.processor.idle 1⟩
  | .goto target _ => do
    let index ← labelIndex? items target
    return ⟨index, machine.processor.idle 1⟩
  | .compare comparison register accept reject _ => do
    let value := machine.processor.core.reg register
    let zero := machine.processor.core.reg 0
    let index ← (if comparison.holds value zero then accept else reject).index? items machine.index
    let otherwise := comparison.verdict.opposite.pick accept reject
    return ⟨index, machine.processor.idle (comparison.cycles value zero otherwise)⟩
  | .call main _ => do
    let back := UInt8.ofNat (itemOffset items (machine.index + 1))
    let index ← labelIndex? items main
    let pushed ← continueAt index
      ((machine.processor.during fun core => (core.setReg 0 back, none)).during (push back))
    return { pushed with processor := pushed.processor.idle 1 }
  | .ret => do
    let index ← startIndex? items (top machine.processor.core).toNat
    return ⟨index, machine.processor.during pop⟩
  | .halt => some ⟨machine.index + 1, machine.processor.during fun core => (core, some .halted)⟩

def step (items : List Item) (size : Nat) (machine : Machine δ) : Option (Machine δ) :=
  match machine.processor.status, items[machine.index]? with
  | .ready, some item => machine.perform items size item
  | _, _ => none

def runFor (items : List Item) (size : Nat) : Nat → Machine δ → Option (Machine δ)
  | 0, machine => some machine
  | count + 1, machine => (machine.step items size).bind (runFor items size count)

theorem runFor_succ (items : List Item) (size count : Nat) (machine : Machine δ) :
    runFor items size (count + 1) machine =
      (machine.step items size).bind (runFor items size count) := rfl

theorem runFor_add {items : List Item} {size m n : Nat} {a b c : Machine δ}
    (hab : runFor items size m a = some b) (hbc : runFor items size n b = some c) :
    runFor items size (m + n) a = some c := by
  induction m generalizing a with
  | zero =>
    cases hab
    rw [Nat.zero_add]
    exact hbc
  | succ m ih =>
    rw [runFor_succ] at hab
    obtain ⟨mid, hstep, hrest⟩ := Option.bind_eq_some_iff.1 hab
    rw [Nat.succ_add, runFor_succ, hstep]
    exact ih hrest

end Machine

end ByteBasic
