import ByteBasic.Proofs.Machine.Decoding
import Mathlib.Data.List.Find

/-!
# Images and back

Instructions are laid out as words and read again, and words are read as instructions and laid out
again. The two ways are not symmetric. An instruction may hold a register that no nibble holds, and a
word may have bits that no field uses.

**From instructions.** `Instruction.registers` are the registers and rotate amounts of an
instruction, each with the field it goes into. The first one of a whole list that is not below 16
decides (`mapM_encode`): if there is none, the list has an image, and otherwise the error is about
that one.

**From words.** A word is the number of its four digits in base sixteen, so that packing the digits
that were read gives the word again (`byteWord_digits`, `nibbleWord_digits`). An operation that uses
fewer digits puts zeros in place of the others (`Instruction.word_decode`).

**Theorem (`images_are_read_back`).** Which lists of instructions have an image and what is read from
it, what the words of a list of bytes are as bytes, and what the instructions of a list of words are
as words.
-/

namespace ByteBasic

/-! ## Registers and rotate amounts -/

/-- The register of a side that is not special, with the field it goes into. -/
def Side.registers (field : OperandField) : Side → List (OperandField × UInt8)
  | .general register => [(field, register)]
  | .special _ => []

namespace Instruction

/-- The registers and the rotate amount of an instruction, each with the field it goes into, in the
order of the fields. -/
def registers : Instruction → List (OperandField × UInt8)
  | .loadMem r _ | .load r _ | .store r _ | .jump _ r _ | .storePort r _ | .loadPort r _ =>
    [(.reg, r)]
  | .move source dest => source.registers .src ++ dest.registers .dest
  | .alu _ d a b => [(.dest, d), (.src1, a), (.src2, b)]
  | .rotate r n => [(.reg, r), (.amount, n)]
  | .noOp | .halt | .unknown _ => []

/-- Whether a register or rotate amount is too wide for a nibble. -/
def isWide (operand : OperandField × UInt8) : Bool :=
  16 ≤ operand.2.toNat

/-- The value is the first register or rotate amount of the instructions that is not below 16, and it
goes into the field. -/
def FirstWide (instructions : List Instruction) (field : OperandField) (value : UInt8) : Prop :=
  ∃ before instruction after narrow rest,
    instructions = before ++ instruction :: after ∧
    (∀ other ∈ before, ∀ operand ∈ other.registers, operand.2.toNat < 16) ∧
    instruction.registers = narrow ++ (field, value) :: rest ∧
    (∀ operand ∈ narrow, operand.2.toNat < 16) ∧ 16 ≤ value.toNat

/-- The instruction with a word that means nothing replaced by what the word stands for. -/
def recognized : Instruction → Instruction
  | .unknown word => decode word
  | instruction => instruction

theorem isWide_eq_false {operand : OperandField × UInt8} :
    isWide operand = false ↔ operand.2.toNat < 16 := by
  simp [isWide]

theorem isWide_eq {operand : OperandField × UInt8} (h : operand.1.bits = 4) :
    isWide operand = !BitField.fits operand.2.toUInt16.toBitVec operand.1.bits := by
  rw [h, isWide, Bool.eq_iff_iff, Bool.not_eq_true', ← Bool.not_eq_true, fits_nibble, Nat.not_lt,
    decide_eq_true_eq]

/-- The number of a special register fits in a nibble, so that only general ones are in question. -/
theorem find?_sides (source dest : Side) :
    [(OperandField.src, source.index), (.dest, dest.index)].find? isWide =
      (source.registers .src ++ dest.registers .dest).find? isWide := by
  have hspecial : ∀ (field : OperandField) (special : SpecialRegister),
      isWide (field, special.index) = false := by
    intro field special
    cases special <;> rfl
  cases source <;> cases dest <;> simp [Side.registers, Side.index, hspecial, List.find?_cons]

/-- The first register or rotate amount that is too wide is what an instruction is refused for. -/
theorem misfit?_eq (instruction : Instruction) :
    instruction.misfit? = instruction.registers.find? isWide := by
  have hnibbles : instruction.misfit? = instruction.nibbles.find? isWide := by
    unfold misfit?
    refine List.find?_congr fun operand hmem => ?_
    exact (isWide_eq (bits_of_mem_nibbles hmem)).symm
  rw [hnibbles]
  cases instruction with
  | move source dest => exact find?_sides source dest
  | _ => rfl

theorem encode_eq (instruction : Instruction) :
    instruction.encode =
      match instruction.registers.find? isWide with
      | some (field, value) => .error (.overflow field value.toUInt16)
      | none => .ok instruction.word := by
  have hmisfit := misfit?_eq instruction
  cases hfind : instruction.registers.find? isWide with
  | none => simp only [encode, hmisfit, hfind]
  | some operand => simp only [encode, hmisfit, hfind]

/-- The instructions of a list are encoded in order, up to the first operand that is too wide. -/
theorem mapM_encode (instructions : List Instruction) :
    instructions.mapM encode =
      match (instructions.flatMap registers).find? isWide with
      | some (field, value) => .error (.overflow field value.toUInt16)
      | none => .ok (instructions.map word) := by
  induction instructions with
  | nil => rfl
  | cons instruction instructions ih =>
    rw [List.mapM_cons, encode_eq, ih, List.flatMap_cons, List.find?_append]
    cases instruction.registers.find? isWide with
    | some operand => rfl
    | none =>
      rw [Option.none_or]
      cases (instructions.flatMap registers).find? isWide <;> rfl

theorem find?_registers_eq_none {instructions : List Instruction} :
    (instructions.flatMap registers).find? isWide = none ↔
      ∀ instruction ∈ instructions, ∀ operand ∈ instruction.registers, operand.2.toNat < 16 := by
  simp only [List.find?_eq_none, List.mem_flatMap, Bool.not_eq_true, isWide_eq_false]
  constructor
  · intro h instruction hinstruction operand hoperand
    exact h operand ⟨instruction, hinstruction, hoperand⟩
  · rintro h operand ⟨instruction, hinstruction, hoperand⟩
    exact h instruction hinstruction operand hoperand

theorem firstWide_of_find? {instructions : List Instruction} {field : OperandField} {value : UInt8}
    (h : (instructions.flatMap registers).find? isWide = some (field, value)) :
    FirstWide instructions field value := by
  rw [List.find?_flatMap, List.findSome?_eq_some_iff] at h
  obtain ⟨before, instruction, after, hsplit, hfind, hbefore⟩ := h
  obtain ⟨hwide, narrow, rest, hregisters, hnarrow⟩ := List.find?_eq_some_iff_append.1 hfind
  refine ⟨before, instruction, after, narrow, rest, hsplit, ?_, hregisters, ?_, ?_⟩
  · intro other hother operand hoperand
    have hnone := List.find?_eq_none.1 (hbefore other hother) operand hoperand
    exact isWide_eq_false.1 (Bool.eq_false_of_not_eq_true hnone)
  · intro operand hoperand
    exact isWide_eq_false.1 (by simpa using hnarrow operand hoperand)
  · exact of_decide_eq_true hwide

theorem bits_of_mem_registers {instruction : Instruction} {operand : OperandField × UInt8}
    (h : operand ∈ instruction.registers) : operand.1.bits = 4 := by
  cases instruction with
  | move source dest =>
    cases source <;> cases dest <;> simp_all [registers, Side.registers] <;>
      grind [OperandField.bits]
  | _ => simp_all [registers] <;> grind [OperandField.bits]

/-- What is said of the first register or rotate amount that is too wide. -/
theorem FirstWide.message {instructions : List Instruction} {field : OperandField} {value : UInt8}
    (h : FirstWide instructions field value) :
    (EncodeError.overflow field value.toUInt16).message =
      field.name ++ " operand 0x" ++ Hex.numeralLower 1 value.toNat ++
        " does not fit in 4 bits" := by
  obtain ⟨_, instruction, _, _, _, -, -, hregisters, -⟩ := h
  have hmem : (field, value) ∈ instruction.registers := by simp [hregisters]
  have hbits : field.bits = 4 := bits_of_mem_registers hmem
  have hwidth : " does not fit in " ++ (Decimal.numeral 4 ++ " bits") = " does not fit in 4 bits" :=
    rfl
  calc (EncodeError.overflow field value.toUInt16).message
      = field.name ++ " operand 0x" ++ Hex.numeralLower 1 value.toUInt16.toNat ++
          " does not fit in " ++ Decimal.numeral field.bits ++ " bits" := rfl
    _ = field.name ++ " operand 0x" ++ Hex.numeralLower 1 value.toNat ++
          (" does not fit in " ++ (Decimal.numeral 4 ++ " bits")) := by
        rw [hbits, UInt8.toNat_toUInt16, String.append_assoc, String.append_assoc]
    _ = _ := congrArg (_ ++ ·) hwidth

/-- An instruction with narrow registers is recognized in its word. -/
theorem decode_word_eq {instruction : Instruction}
    (h : ∀ operand ∈ instruction.registers, operand.2.toNat < 16) :
    decode instruction.word = instruction.recognized := by
  have hencode : instruction.encode = .ok instruction.word := by
    have hfind : instruction.registers.find? isWide = none := by
      simpa [isWide_eq_false] using h
    rw [encode_eq, hfind]
  cases instruction with
  | unknown word => rfl
  | _ => exact decode_word (encode_eq_ok_iff.1 hencode).1 (by simp)

end Instruction

/-! ## The digits of a word -/

/-- A mask in two parts is applied to each part of a number. -/
theorem and_parts (n : Nat) (width high : Nat) {low : Nat} (h : low < 2 ^ width) :
    n &&& (2 ^ width * high + low) =
      2 ^ width * (n / 2 ^ width &&& high) + (n % 2 ^ width &&& low) := by
  apply Nat.eq_of_testBit_eq
  intro i
  rw [Nat.testBit_and, Nat.testBit_two_pow_mul_add _ h,
    Nat.testBit_two_pow_mul_add _ (Nat.and_lt_two_pow _ h), Nat.testBit_and, Nat.testBit_and,
    Nat.testBit_div_two_pow, Nat.testBit_mod_two_pow]
  by_cases hi : i < width
  · simp [hi]
  · simp [hi, Nat.sub_add_cancel (Nat.le_of_not_lt hi)]

theorem toNat_and_first (word : UInt16) :
    (word &&& 0xF000).toNat = 4096 * (word.toNat / 4096) := by
  have hlt := word.toNat_lt
  have hmask : (0xF000 : UInt16).toNat = 2 ^ 12 * (2 ^ 4 - 1) + 0 := rfl
  rw [UInt16.toNat_and, hmask, and_parts _ _ _ (by decide), Nat.and_two_pow_sub_one_eq_mod,
    Nat.and_zero]
  omega

theorem toNat_and_outer (word : UInt16) :
    (word &&& 0xF0FF).toNat = 4096 * (word.toNat / 4096) + word.toNat % 256 := by
  have hlt := word.toNat_lt
  have hmask : (0xF0FF : UInt16).toNat = 2 ^ 8 * (2 ^ 4 * (2 ^ 4 - 1) + 0) + (2 ^ 8 - 1) := rfl
  rw [UInt16.toNat_and, hmask, and_parts _ _ _ (by decide), and_parts _ _ _ (by decide),
    Nat.and_two_pow_sub_one_eq_mod, Nat.and_two_pow_sub_one_eq_mod, Nat.and_zero]
  omega

section Digits

variable {word : UInt16} {op : Opcode} (h : Opcode.ofNumber? (word.toNat / 4096) = some op)
include h

theorem byteWord_digits :
    byteWord op (UInt8.ofNat (word.toNat / 256 % 16)) word.toUInt8 = word := by
  have hlt := word.toNat_lt
  apply UInt16.toNat_inj.1
  rw [toNat_byteWord op (Instruction.toNat_nibble _), Opcode.number_of_ofNumber? h]
  simp only [UInt8.toNat_ofNat', UInt16.toNat_toUInt8]
  omega

theorem nibbleWord_digits :
    nibbleWord op (UInt8.ofNat (word.toNat / 256 % 16)) (UInt8.ofNat (word.toNat / 16 % 16))
      (UInt8.ofNat (word.toNat % 16)) = word := by
  have hlt := word.toNat_lt
  apply UInt16.toNat_inj.1
  rw [toNat_nibbleWord op (Instruction.toNat_nibble _) (Instruction.toNat_nibble _)
    (Instruction.toNat_nibble _), Opcode.number_of_ofNumber? h]
  simp only [UInt8.toNat_ofNat']
  omega

/-- The digits of a word whose operation does not use the second one. -/
theorem nibbleWord_outer :
    nibbleWord op 0 (UInt8.ofNat (word.toNat / 16 % 16)) (UInt8.ofNat (word.toNat % 16)) =
      word &&& 0xF0FF := by
  apply UInt16.toNat_inj.1
  rw [toNat_nibbleWord op (by decide) (Instruction.toNat_nibble _) (Instruction.toNat_nibble _),
    Opcode.number_of_ofNumber? h, toNat_and_outer]
  simp only [UInt8.toNat_ofNat', UInt8.toNat_zero]
  omega

/-- The digits of a word whose operation has no operands. -/
theorem nibbleWord_first : nibbleWord op 0 0 0 = word &&& 0xF000 := by
  apply UInt16.toNat_inj.1
  rw [toNat_nibbleWord op (by decide) (by decide) (by decide), Opcode.number_of_ofNumber? h,
    toNat_and_first]
  simp

end Digits

/-- The word with the bits cleared that its operation does not use: all but the first digit where
there are no operands, and the second digit of a rotation. -/
def cleared (word : UInt16) : UInt16 :=
  match Opcode.ofNumber? (word.toNat / 0x1000) with
  | some .noOp | some .halt => word &&& 0xF000
  | some .rotate => word &&& 0xF0FF
  | _ => word

/-- The word of the instruction that a word stands for. -/
theorem Instruction.word_decode (word : UInt16) : (decode word).word = cleared word := by
  obtain ⟨op, hop⟩ := Opcode.exists_ofNumber? word
  rw [decode_eq_read hop, cleared, hop]
  cases op with
  | noOp | halt => exact nibbleWord_first hop
  | loadMem | load | store | jumpEqual | jumpLess | storePort | loadPort =>
    exact byteWord_digits hop
  | add | addFloat | or | and | xor => exact nibbleWord_digits hop
  | rotate => exact nibbleWord_outer hop
  | move =>
    show Instruction.word (Option.getD _ _) = word
    cases hmove : decodeMove? (UInt8.ofNat (word.toNat / 256 % 16))
      (UInt8.ofNat (word.toNat / 16 % 16)) (UInt8.ofNat (word.toNat % 16)) with
    | none => rfl
    | some instruction =>
      obtain ⟨source, dest, rfl, hmode, hsource, hdest⟩ := decodeMove?_eq_some.1 hmove
      rw [Option.getD_some, Instruction.word, hmode, hsource, hdest]
      exact nibbleWord_digits hop

/-- Everything read from words can be encoded. -/
theorem Instruction.mapM_encode_decode (words : List UInt16) :
    (words.map decode).mapM encode = .ok (words.map cleared) := by
  induction words with
  | nil => rfl
  | cons word words ih =>
    have hword : (decode word).encode = .ok (cleared word) :=
      encode_eq_ok_iff.2 ⟨fits_decode word, (word_decode word).symm⟩
    rw [List.map_cons, List.mapM_cons, hword, ih]
    rfl

/-! ## Images -/

/-- The bytes, followed by a zero if their number is odd. -/
def padded (bytes : List UInt8) : List UInt8 :=
  if bytes.length % 2 = 0 then bytes else bytes ++ [0]

theorem bytesOfWord_wordOfBytes (high low : UInt8) :
    bytesOfWord (wordOfBytes high low) = [high, low] := by
  have hhigh := high.toNat_lt
  have hlow := low.toNat_lt
  have hword : (wordOfBytes high low).toNat = 256 * high.toNat + low.toNat := by
    rw [wordOfBytes, UInt16.toNat_ofNat']
    omega
  rw [bytesOfWord, hword]
  congr 1
  · exact byte_eq_of_toNat (by omega)
  · congr 1
    apply UInt8.toNat_inj.1
    rw [UInt16.toNat_toUInt8, hword]
    omega

namespace Image

theorem padded_cons_cons (high low : UInt8) (bytes : List UInt8) :
    padded (high :: low :: bytes) = high :: low :: padded bytes := by
  unfold padded
  simp only [List.length_cons]
  split_ifs <;> first | rfl | omega

theorem ofWords_words (bytes : List UInt8) : ofWords (Image.mk bytes).words = ⟨padded bytes⟩ := by
  rw [ofWords, words, mk.injEq]
  fun_induction wordsOfBytes bytes with
  | case1 => rfl
  | case2 high => exact bytesOfWord_wordOfBytes high 0
  | case3 high low bytes ih =>
    rw [List.flatMap_cons, bytesOfWord_wordOfBytes, ih, padded_cons_cons]
    rfl

theorem decode_ofWords_word {instructions : List Instruction}
    (h : ∀ instruction ∈ instructions, ∀ operand ∈ instruction.registers, operand.2.toNat < 16) :
    (ofWords (instructions.map Instruction.word)).decode =
      instructions.map Instruction.recognized := by
  rw [decode, words_ofWords, List.map_map]
  exact List.map_congr_left fun instruction hmem => Instruction.decode_word_eq (h instruction hmem)

theorem ofInstructions_eq (instructions : List Instruction) :
    ofInstructions instructions =
      match (instructions.flatMap Instruction.registers).find? Instruction.isWide with
      | some (field, value) => .error (.overflow field value.toUInt16)
      | none => .ok (ofWords (instructions.map Instruction.word)) := by
  rw [ofInstructions, Instruction.mapM_encode]
  cases (instructions.flatMap Instruction.registers).find? Instruction.isWide <;> rfl

end Image

/-- A list of instructions has an image exactly if every register and rotate amount in it is below
16; the image then reads as the list, with words that mean nothing replaced by what they stand for,
and otherwise the error names the first field that is too wide. The words of a list of bytes are the
bytes, padded to an even number. The instructions of a list of words are encoded as the words, with
the bits cleared that nothing uses. -/
theorem images_are_read_back :
    (∀ instructions : List Instruction,
      ((∃ image, Image.ofInstructions instructions = .ok image) ↔
        ∀ instruction ∈ instructions, ∀ operand ∈ instruction.registers,
          operand.2.toNat < 16) ∧
      (∀ image, Image.ofInstructions instructions = .ok image →
        image.decode = instructions.map Instruction.recognized) ∧
      ∀ error, Image.ofInstructions instructions = .error error →
        ∃ field value, Instruction.FirstWide instructions field value ∧
          error = .overflow field value.toUInt16 ∧
          error.message = field.name ++ " operand 0x" ++ Hex.numeralLower 1 value.toNat ++
            " does not fit in 4 bits") ∧
    (∀ bytes, Image.ofWords (Image.mk bytes).words = ⟨padded bytes⟩) ∧
    ∀ words : List UInt16,
      (words.map Instruction.decode).mapM Instruction.encode = .ok (words.map cleared) := by
  refine ⟨fun instructions => ?_, Image.ofWords_words, Instruction.mapM_encode_decode⟩
  have himage := Image.ofInstructions_eq instructions
  cases hfind : (instructions.flatMap Instruction.registers).find? Instruction.isWide with
  | none =>
    rw [hfind] at himage
    have hnarrow := Instruction.find?_registers_eq_none.1 hfind
    refine ⟨⟨fun _ => hnarrow, fun _ => ⟨_, himage⟩⟩, ?_, ?_⟩
    · intro image hok
      cases himage.symm.trans hok
      exact Image.decode_ofWords_word hnarrow
    · intro error herror
      cases himage.symm.trans herror
  | some operand =>
    obtain ⟨field, value⟩ := operand
    rw [hfind] at himage
    refine ⟨⟨?_, ?_⟩, ?_, ?_⟩
    · rintro ⟨image, hok⟩
      cases himage.symm.trans hok
    · intro hnarrow
      cases (Instruction.find?_registers_eq_none.2 hnarrow).symm.trans hfind
    · intro image hok
      cases himage.symm.trans hok
    · intro error herror
      cases himage.symm.trans herror
      -- The operand that encoding stops at is the first one that is too wide.
      have hfirst := Instruction.firstWide_of_find? hfind
      exact ⟨field, value, hfirst, rfl, hfirst.message⟩

/-- A word that nothing reads, kept as it is in the image but not among its instructions, and an
addition whose second and third registers are both too wide. -/
theorem images_are_read_back_unknown :
    (∃ image, Image.ofInstructions [.load 1 0x41, .unknown 0x2107, .rotate 15 2] = .ok image ∧
      image.decode = [.load 1 0x41, .load 1 7, .rotate 15 2]) ∧
    Image.ofInstructions [.halt, .alu .add 3 16 20] = .error (.overflow .src1 16) ∧
    ∃ field value, Instruction.FirstWide [.halt, .alu .add 3 16 20] field value ∧
      EncodeError.overflow .src1 16 = .overflow field value.toUInt16 := by
  have hwide : Image.ofInstructions [.halt, .alu .add 3 16 20] = .error (.overflow .src1 16) := by
    decide
  refine ⟨?_, hwide, ?_⟩
  · obtain ⟨hiff, hread, -⟩ :=
      images_are_read_back.1 [.load 1 0x41, .unknown 0x2107, .rotate 15 2]
    obtain ⟨image, himage⟩ := hiff.2 (by decide)
    exact ⟨image, himage, hread image himage⟩
  · obtain ⟨-, -, hrefused⟩ := images_are_read_back.1 [.halt, .alu .add 3 16 20]
    obtain ⟨field, value, hfirst, herror, -⟩ := hrefused _ hwide
    exact ⟨field, value, hfirst, herror⟩

end ByteBasic
