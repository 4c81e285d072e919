import ByteBasic.Code.Layout
import ByteBasic.Proofs.Machine.Decoding
import Mathlib.Algebra.GroupWithZero.Nat

/-!
# Direct assembly

If the place of every label were known beforehand, items could be written out at once: each jump
with its final operand (`Item.instructions`). The layout does not know them and fills the operands in
later. This module has the direct assembler; `Code.Patching` shows that the two give the same bytes.
-/

namespace ByteBasic

/-- Where a target is, for a comparison that ends at `after`. -/
def Target.offset (place : LabelId → Nat) (after : Nat) : Target → Nat
  | .label id => place id
  | .next => after

/-- The jump of a comparison none of whose tests is taken. -/
def Target.jumpOtherwise (place : LabelId → Nat) : Target → List Instruction
  | .label id => [.jump .equal 0 (UInt8.ofNat (place id))]
  | .next => []

/-- The instructions of an item at an offset, when all labels have their places. -/
def Item.instructions (place : LabelId → Nat) (offset : Nat) : Item → List Instruction
  | .label _ _ => []
  | .instruction i => [i]
  | .jump test register target _ => [.jump test register (UInt8.ofNat (place target))]
  | .goto target _ => [.jump .equal 0 (UInt8.ofNat (place target))]
  | .compare comparison register accept reject line =>
    let after := offset + (Item.compare comparison register accept reject line).size
    let taken := (comparison.verdict.pick accept reject).offset place after
    comparison.tests.map (fun test => .jump test register (UInt8.ofNat taken)) ++
      (comparison.verdict.opposite.pick accept reject).jumpOtherwise place
  | .call main _ =>
    [.load 0 (UInt8.ofNat (offset + 6)), .move (.general 0) (.special .stack),
      .jump .equal 0 (UInt8.ofNat (place main))]
  | .ret => [.move (.special .stack) (.special .programCounter)]
  | .halt => [.halt]

/-- The places that the code of an item has to hold in a byte each. -/
def Item.operands (place : LabelId → Nat) (offset : Nat) : Item → List Nat
  | .jump _ _ target _ => [place target]
  | .goto target _ => [place target]
  | .compare comparison register accept reject line =>
    let after := offset + (Item.compare comparison register accept reject line).size
    [(comparison.verdict.pick accept reject).offset place after,
      (comparison.verdict.opposite.pick accept reject).offset place 0]
  | .call main _ => [offset + 6, place main]
  | _ => []

def Target.labels : Target → List LabelId
  | .label id => [id]
  | .next => []

def Item.labels : Item → List LabelId
  | .label id _ => [id]
  | .jump _ _ target _ => [target]
  | .goto target _ => [target]
  | .compare _ _ accept reject _ => accept.labels ++ reject.labels
  | .call main _ => [main]
  | _ => []

/-- Whether the registers that an item names exist. -/
def Item.Fits : Item → Prop
  | .instruction i => i.Fits
  | .jump _ register _ _ => register.toNat < 16
  | .compare _ register _ _ _ => register.toNat < 16
  | _ => True

/-- The lines that an item is blamed on. -/
def Item.lines : Item → List Nat
  | .label _ line => [line]
  | .jump _ _ _ line => [line]
  | .goto _ line => [line]
  | .compare _ _ _ _ line => [line]
  | .call _ line => [line]
  | _ => []

/-- The instructions of items that start at an offset. -/
def assembleFrom (place : LabelId → Nat) (offset : Nat) : List Item → List Instruction
  | [] => []
  | item :: items => item.instructions place offset ++ assembleFrom place (offset + item.size) items

/-- The places that the code of items has to hold in a byte each. -/
def operandsFrom (place : LabelId → Nat) (offset : Nat) : List Item → List Nat
  | [] => []
  | item :: items => item.operands place offset ++ operandsFrom place (offset + item.size) items

/-- The bytes of instructions, one after the other. -/
def imageBytes (instructions : List Instruction) : List UInt8 :=
  instructions.flatMap fun instruction => bytesOfWord instruction.word

/-- The offset of the item with a given number, which is the size of all items before it. -/
def itemOffset (items : List Item) (index : Nat) : Nat :=
  ((items.take index).map Item.size).sum

/-! ## Sizes -/

theorem length_instructions (place : LabelId → Nat) (offset : Nat) (item : Item) :
    (item.instructions place offset).length = item.words := by
  cases item with
  | compare comparison register accept reject line =>
    simp only [Item.instructions, Item.words, List.length_append, List.length_map]
    cases comparison.verdict.opposite.pick accept reject <;> rfl
  | _ => rfl

@[simp] theorem imageBytes_nil : imageBytes [] = [] := rfl

@[simp] theorem imageBytes_append (xs ys : List Instruction) :
    imageBytes (xs ++ ys) = imageBytes xs ++ imageBytes ys :=
  List.flatMap_append

theorem imageBytes_cons (instruction : Instruction) (rest : List Instruction) :
    imageBytes (instruction :: rest) = bytesOfWord instruction.word ++ imageBytes rest := rfl

theorem length_imageBytes (instructions : List Instruction) :
    (imageBytes instructions).length = 2 * instructions.length := by
  induction instructions with
  | nil => rfl
  | cons instruction rest ih =>
    rw [imageBytes_cons, List.length_append, ih, List.length_cons]
    simp [bytesOfWord]
    omega

theorem length_assembleFrom (place : LabelId → Nat) (offset : Nat) (items : List Item) :
    2 * (assembleFrom place offset items).length = (items.map Item.size).sum := by
  induction items generalizing offset with
  | nil => rfl
  | cons item items ih =>
    rw [assembleFrom, List.length_append, length_instructions, List.map_cons, List.sum_cons,
      ← ih (offset + item.size), Item.size]
    omega

@[simp] theorem itemOffset_zero (items : List Item) : itemOffset items 0 = 0 := rfl

theorem itemOffset_cons_succ (item : Item) (items : List Item) (index : Nat) :
    itemOffset (item :: items) (index + 1) = item.size + itemOffset items index := by
  simp [itemOffset]

theorem itemOffset_succ {items : List Item} {index : Nat} {item : Item}
    (h : items[index]? = some item) :
    itemOffset items (index + 1) = itemOffset items index + item.size := by
  unfold itemOffset
  rw [List.take_add_one, h]
  simp

theorem assembleFrom_split (place : LabelId → Nat) {items : List Item} {index : Nat} {item : Item}
    (offset : Nat) (h : items[index]? = some item) :
    ∃ before after, assembleFrom place offset items =
        before ++ item.instructions place (offset + itemOffset items index) ++ after ∧
      2 * before.length = itemOffset items index := by
  induction items generalizing offset index with
  | nil => simp at h
  | cons first rest ih =>
    cases index with
    | zero =>
      simp only [List.getElem?_cons_zero, Option.some.injEq] at h
      subst h
      exact ⟨[], assembleFrom place (offset + first.size) rest, by simp [assembleFrom], rfl⟩
    | succ index =>
      obtain ⟨before, after, hcode, hlength⟩ := ih (offset + first.size) (by simpa using h)
      refine ⟨first.instructions place offset ++ before, after, ?_, ?_⟩
      · rw [assembleFrom, hcode, itemOffset_cons_succ, Nat.add_assoc]
        simp
      · rw [List.length_append, length_instructions, itemOffset_cons_succ, Nat.mul_add, hlength,
          Item.size]

end ByteBasic
