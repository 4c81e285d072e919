import ByteBasic.Machine.Image
import ByteBasic.Proofs.Machine.Packing
import Mathlib.Tactic.SplitIfs

/-!
# Words read back

An instruction whose operands fit in their fields is found again in its word
(`Instruction.decode_word`). Words are compared as numbers: a word is the opcode's number in its most
significant nibble and the operands below it (`toNat_byteWord`, `toNat_nibbleWord`), and decoding
takes the number apart again.

The operand of a jump is the low byte of its word, whatever the rest is (`bytesOfWord_jump`), which
is why it can be filled in later.
-/

namespace ByteBasic

/-! ## Fields that fit -/

theorem fits_nibble (value : UInt8) :
    BitField.fits value.toUInt16.toBitVec 4 = true ↔ value.toNat < 16 := by
  simp [BitField.fits_iff]

namespace Instruction

/-- Every operand fits in its field. -/
def Fits (instruction : Instruction) : Prop :=
  ∀ operand ∈ instruction.nibbles, operand.2.toNat < 16

instance (instruction : Instruction) : Decidable instruction.Fits :=
  inferInstanceAs (Decidable (∀ operand ∈ instruction.nibbles, operand.2.toNat < 16))

theorem fits_register {instruction : Instruction} {register : UInt8}
    (h : instruction.nibbles = [(.reg, register)]) :
    instruction.Fits ↔ register.toNat < 16 := by
  simp [Fits, h]

theorem fits_alu {op : AluOp} {d a b : UInt8} :
    (alu op d a b).Fits ↔ d.toNat < 16 ∧ a.toNat < 16 ∧ b.toNat < 16 := by
  simp [Fits, nibbles]

theorem fits_rotate {register amount : UInt8} :
    (rotate register amount).Fits ↔ register.toNat < 16 ∧ amount.toNat < 16 := by
  simp [Fits, nibbles]

theorem fits_move {source dest : Side} :
    (move source dest).Fits ↔ source.index.toNat < 16 ∧ dest.index.toNat < 16 := by
  simp [Fits, nibbles]

theorem bits_of_mem_nibbles {instruction : Instruction} {operand : OperandField × UInt8}
    (h : operand ∈ instruction.nibbles) : operand.1.bits = 4 := by
  cases instruction <;> simp only [nibbles, List.mem_cons, List.not_mem_nil, or_false] at h <;>
    grind [OperandField.bits]

theorem encode_eq_ok_iff {instruction : Instruction} {word : UInt16} :
    instruction.encode = .ok word ↔ instruction.Fits ∧ word = instruction.word := by
  have hmisfit : instruction.misfit? = none ↔ instruction.Fits := by
    unfold misfit? Fits
    rw [List.find?_eq_none]
    refine forall_congr' fun operand => forall_congr' fun hmem => ?_
    simp only [bits_of_mem_nibbles hmem, Bool.not_eq_true', Bool.not_eq_false, fits_nibble]
  unfold encode
  cases hm : instruction.misfit? with
  | some misfit =>
    have : ¬ instruction.Fits := fun h => by rw [hmisfit.2 h] at hm; cases hm
    simp [this]
  | none => simp [hmisfit.1 hm, eq_comm]

end Instruction

/-! ## Words as numbers -/

namespace BitField

theorem pack_nil : pack [] = 0 := rfl

theorem pack_byte (value : UInt8) (fields : List BitField) :
    pack (⟨8, value⟩ :: fields) = value.toNat % 256 + 256 * pack fields := rfl

theorem pack_nibble (value : UInt8) (fields : List BitField) :
    pack (⟨4, value⟩ :: fields) = value.toNat % 16 + 16 * pack fields := rfl

end BitField

theorem toNat_byteWord (op : Opcode) {register : UInt8} (h : register.toNat < 16) (value : UInt8) :
    (byteWord op register value).toNat = 4096 * op.number + 256 * register.toNat + value.toNat := by
  have h₁ := op.number_lt
  have h₂ := value.toNat_lt
  rw [byteWord, BitField.toNat_packWord ⟨by simp, by simp⟩ (by simp)]
  simp only [BitField.pack_byte, BitField.pack_nibble, BitField.pack_nil, UInt8.toNat_ofNat']
  omega

theorem toNat_nibbleWord (op : Opcode) {a b c : UInt8} (ha : a.toNat < 16) (hb : b.toNat < 16)
    (hc : c.toNat < 16) :
    (nibbleWord op a b c).toNat =
      4096 * op.number + 256 * a.toNat + 16 * b.toNat + c.toNat := by
  have h₁ := op.number_lt
  rw [nibbleWord, BitField.toNat_packWord ⟨by simp, by simp⟩ (by simp)]
  simp only [BitField.pack_nibble, BitField.pack_nil, UInt8.toNat_ofNat']
  omega

/-- A field of a word is found again as the byte that was put there. -/
theorem byte_eq_of_toNat {n : Nat} {byte : UInt8} (h : n = byte.toNat) : UInt8.ofNat n = byte := by
  rw [h, UInt8.ofNat_toNat]

theorem opcode_byteWord (op : Opcode) {register : UInt8} (h : register.toNat < 16)
    (value : UInt8) : Opcode.ofNumber? ((byteWord op register value).toNat / 4096) = some op := by
  have := value.toNat_lt
  have hnumber : (byteWord op register value).toNat / 4096 = op.number := by
    rw [toNat_byteWord op h]
    omega
  rw [hnumber, Opcode.ofNumber?_number]

theorem register_byteWord (op : Opcode) {register : UInt8} (h : register.toNat < 16)
    (value : UInt8) :
    UInt8.ofNat ((byteWord op register value).toNat / 256 % 16) = register := by
  have := value.toNat_lt
  apply byte_eq_of_toNat
  rw [toNat_byteWord op h]
  omega

theorem value_byteWord (op : Opcode) {register : UInt8} (h : register.toNat < 16)
    (value : UInt8) : (byteWord op register value).toUInt8 = value := by
  have := value.toNat_lt
  apply UInt8.toNat_inj.1
  rw [UInt16.toNat_toUInt8, toNat_byteWord op h]
  omega

section Nibbles

variable (op : Opcode) {a b c : UInt8} (ha : a.toNat < 16) (hb : b.toNat < 16) (hc : c.toNat < 16)
include ha hb hc

theorem opcode_nibbleWord : Opcode.ofNumber? ((nibbleWord op a b c).toNat / 4096) = some op := by
  have hnumber : (nibbleWord op a b c).toNat / 4096 = op.number := by
    rw [toNat_nibbleWord op ha hb hc]
    omega
  rw [hnumber, Opcode.ofNumber?_number]

theorem first_nibbleWord : UInt8.ofNat ((nibbleWord op a b c).toNat / 256 % 16) = a := by
  apply byte_eq_of_toNat
  rw [toNat_nibbleWord op ha hb hc]
  omega

theorem second_nibbleWord : UInt8.ofNat ((nibbleWord op a b c).toNat / 16 % 16) = b := by
  apply byte_eq_of_toNat
  rw [toNat_nibbleWord op ha hb hc]
  omega

theorem third_nibbleWord : UInt8.ofNat ((nibbleWord op a b c).toNat % 16) = c := by
  apply byte_eq_of_toNat
  rw [toNat_nibbleWord op ha hb hc]
  omega

end Nibbles

/-! ## Decoding -/

/-- The bits of a mode say which sides are special, and there are no others. -/
theorem moveMode_bits (source dest : Side) :
    (moveMode source dest &&& 1 != 0) = source.isSpecial ∧
      (moveMode source dest &&& 2 != 0) = dest.isSpecial ∧
      (moveMode source dest).toNat < 4 ∧
      BitField.fits (moveMode source dest).toBitVec OperandField.mode.bits = true := by
  unfold moveMode
  generalize source.isSpecial = s
  generalize dest.isSpecial = d
  revert s d
  decide

theorem decodeMove?_moveMode (source dest : Side) :
    Instruction.decodeMove? (moveMode source dest) source.index dest.index =
      some (.move source dest) := by
  obtain ⟨hsource, hdest, -, hfits⟩ := moveMode_bits source dest
  simp [Instruction.decodeMove?, hfits, hsource, hdest, Side.ofIndex?_isSpecial_index]

theorem Side.ofIndex?_eq_some {special : Bool} {index : UInt8} {side : Side} :
    Side.ofIndex? special index = some side ↔ side.isSpecial = special ∧ side.index = index := by
  constructor
  · intro h
    cases special with
    | false =>
      cases h
      exact ⟨rfl, rfl⟩
    | true =>
      obtain ⟨register, hregister, rfl⟩ := Option.map_eq_some_iff.1 h
      unfold SpecialRegister.ofIndex? at hregister
      split_ifs at hregister with h₀ h₁ h₂ <;> cases hregister
      · exact ⟨rfl, h₀.symm⟩
      · exact ⟨rfl, h₁.symm⟩
      · exact ⟨rfl, h₂.symm⟩
  · rintro ⟨rfl, rfl⟩
    exact Side.ofIndex?_isSpecial_index side

theorem moveMode_eq {mode : UInt8} {source dest : Side}
    (hfits : BitField.fits mode.toBitVec OperandField.mode.bits = true)
    (hsource : source.isSpecial = (mode &&& 1 != 0)) (hdest : dest.isSpecial = (mode &&& 2 != 0)) :
    moveMode source dest = mode := by
  have hall : ∀ n < 4, (if UInt8.ofNat n &&& 1 != 0 then 1 else 0) +
      (if UInt8.ofNat n &&& 2 != 0 then 2 else 0) = UInt8.ofNat n := by decide
  have hmode := hall mode.toNat ((BitField.fits_iff _ _).1 hfits)
  rw [UInt8.ofNat_toNat] at hmode
  rw [moveMode, hsource, hdest]
  exact hmode

/-- A move is read from the mode of its sides and their numbers, and from nothing else. -/
theorem decodeMove?_eq_some {mode source dest : UInt8} {instruction : Instruction} :
    Instruction.decodeMove? mode source dest = some instruction ↔
      ∃ s d, instruction = .move s d ∧ moveMode s d = mode ∧ s.index = source ∧ d.index = dest := by
  constructor
  · intro h
    unfold Instruction.decodeMove? at h
    split at h
    next hfits =>
      obtain ⟨s, hs, h⟩ := Option.bind_eq_some_iff.1 h
      obtain ⟨d, hd, h⟩ := Option.bind_eq_some_iff.1 h
      obtain ⟨hspecial, hsource⟩ := Side.ofIndex?_eq_some.1 hs
      obtain ⟨hspecial', hdest⟩ := Side.ofIndex?_eq_some.1 hd
      cases h
      exact ⟨s, d, rfl, moveMode_eq hfits hspecial hspecial', hsource, hdest⟩
    next => cases h
  · rintro ⟨s, d, rfl, rfl, rfl, rfl⟩
    exact decodeMove?_moveMode s d

/-- The instruction that the fields of a word stand for under an operation. -/
def Opcode.read (op : Opcode) (word : UInt16) (a b c byte : UInt8) : Instruction :=
  match op with
  | .noOp => .noOp
  | .loadMem => .loadMem a byte
  | .load => .load a byte
  | .store => .store a byte
  | .move => (Instruction.decodeMove? a b c).getD (.unknown word)
  | .add => .alu .add a b c
  | .addFloat => .alu .addFloat a b c
  | .or => .alu .or a b c
  | .and => .alu .and a b c
  | .xor => .alu .xor a b c
  | .rotate => .rotate b c
  | .jumpEqual => .jump .equal a byte
  | .halt => .halt
  | .storePort => .storePort a byte
  | .loadPort => .loadPort a byte
  | .jumpLess => .jump .less a byte

theorem Opcode.number_of_ofNumber? {number : Nat} {op : Opcode} (h : ofNumber? number = some op) :
    op.number = number := by
  obtain ⟨hlt, rfl⟩ := List.getElem?_eq_some_iff.1 h
  revert number
  decide

/-- Every word has an operation. -/
theorem Opcode.exists_ofNumber? (word : UInt16) :
    ∃ op, Opcode.ofNumber? (word.toNat / 4096) = some op := by
  have hlt := word.toNat_lt
  have hnumber : word.toNat / 4096 < Opcode.all.length := by
    show word.toNat / 4096 < 16
    omega
  exact ⟨_, List.getElem?_eq_getElem hnumber⟩

namespace Instruction

theorem decode_eq_read {word : UInt16} {op : Opcode}
    (h : Opcode.ofNumber? (word.toNat / 4096) = some op) :
    decode word = op.read word (UInt8.ofNat (word.toNat / 256 % 16))
      (UInt8.ofNat (word.toNat / 16 % 16)) (UInt8.ofNat (word.toNat % 16)) word.toUInt8 := by
  unfold decode
  rw [h]
  cases op <;> rfl

theorem decode_byteWord (op : Opcode) {register : UInt8} (h : register.toNat < 16)
    (value : UInt8) :
    ∃ b c, decode (byteWord op register value) =
      op.read (byteWord op register value) register b c value := by
  have hread := decode_eq_read (opcode_byteWord op h value)
  rw [register_byteWord op h, value_byteWord op h] at hread
  exact ⟨_, _, hread⟩

theorem decode_nibbleWord (op : Opcode) {a b c : UInt8} (ha : a.toNat < 16) (hb : b.toNat < 16)
    (hc : c.toNat < 16) :
    ∃ byte, decode (nibbleWord op a b c) = op.read (nibbleWord op a b c) a b c byte := by
  have hread := decode_eq_read (opcode_nibbleWord op ha hb hc)
  rw [first_nibbleWord op ha hb hc, second_nibbleWord op ha hb hc, third_nibbleWord op ha hb hc]
    at hread
  exact ⟨_, hread⟩

/-- An instruction that fits is found again in its word. -/
theorem decode_word {instruction : Instruction} (h : instruction.Fits)
    (known : ∀ word, instruction ≠ .unknown word) : decode instruction.word = instruction := by
  cases instruction with
  | noOp => decide
  | halt => decide
  | loadMem r v | load r v | store r v | storePort r v | loadPort r v =>
    obtain ⟨_, _, hread⟩ := decode_byteWord _ ((fits_register rfl).1 h) v
    exact hread
  | jump test r v =>
    obtain ⟨_, _, hread⟩ := decode_byteWord test.opcode ((fits_register rfl).1 h) v
    cases test <;> exact hread
  | alu op d a b =>
    obtain ⟨hd, ha, hb⟩ := fits_alu.1 h
    obtain ⟨_, hread⟩ := decode_nibbleWord op.opcode hd ha hb
    cases op <;> exact hread
  | rotate r n =>
    obtain ⟨hr, hn⟩ := fits_rotate.1 h
    have h0 : (0 : UInt8).toNat < 16 := by decide
    obtain ⟨_, hread⟩ := decode_nibbleWord .rotate h0 hr hn
    exact hread
  | move source dest =>
    obtain ⟨hs, hd⟩ := fits_move.1 h
    have hm : (moveMode source dest).toNat < 16 :=
      Nat.lt_of_lt_of_le (moveMode_bits source dest).2.2.1 (by decide)
    obtain ⟨_, hread⟩ := decode_nibbleWord .move hm hs hd
    rw [Opcode.read, decodeMove?_moveMode, Option.getD_some] at hread
    exact hread
  | unknown w => exact absurd rfl (known w)

/-- The bytes of a jump: its target is the second one, and the first does not depend on it. -/
theorem bytesOfWord_jump (test : JumpTest) {register : UInt8} (h : register.toNat < 16)
    (target : UInt8) :
    bytesOfWord (word (.jump test register target)) =
      [UInt8.ofNat (16 * test.opcode.number + register.toNat), target] := by
  have h₁ := target.toNat_lt
  unfold bytesOfWord word
  rw [value_byteWord _ h, toNat_byteWord _ h]
  congr 2
  omega

/-! ## The operands of a word -/

theorem toNat_nibble (n : Nat) : (UInt8.ofNat (n % 16)).toNat < 16 := by
  rw [UInt8.toNat_ofNat']
  omega

theorem fits_decodeMove? {mode source dest : UInt8} {instruction : Instruction}
    (h : decodeMove? mode source dest = some instruction) (hsource : source.toNat < 16)
    (hdest : dest.toNat < 16) : instruction.Fits := by
  obtain ⟨s, d, rfl, -, rfl, rfl⟩ := decodeMove?_eq_some.1 h
  exact fits_move.2 ⟨hsource, hdest⟩

/-- The operands of an instruction that comes from a word fit in their fields. -/
theorem fits_decode (word : UInt16) : (decode word).Fits := by
  obtain ⟨op, hop⟩ := Opcode.exists_ofNumber? word
  rw [decode_eq_read hop]
  cases op with
  | noOp | halt => exact fun operand hmem => by cases hmem
  | move =>
    show Fits (Option.getD _ _)
    cases hmove : decodeMove? (UInt8.ofNat (word.toNat / 256 % 16))
      (UInt8.ofNat (word.toNat / 16 % 16)) (UInt8.ofNat (word.toNat % 16)) with
    | none => exact fun operand hmem => by cases hmem
    | some instruction => exact fits_decodeMove? hmove (toNat_nibble _) (toNat_nibble _)
  | add | addFloat | or | and | xor =>
    exact fits_alu.2 ⟨toNat_nibble _, toNat_nibble _, toNat_nibble _⟩
  | rotate => exact fits_rotate.2 ⟨toNat_nibble _, toNat_nibble _⟩
  | loadMem | load | store | jumpEqual | jumpLess | storePort | loadPort =>
    exact (fits_register rfl).2 (toNat_nibble _)

end Instruction

end ByteBasic
