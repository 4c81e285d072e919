import ByteBasic.Proofs.Machine.Decoding
import Mathlib.Data.List.Basic

/-!
# Assembling

An instruction is assembled from a mnemonic and plain numbers, in the order of the fields. What an
operation accepts is said field by field (`Opcode.Accepts`), and the word of an instruction is laid
out field by field (`Opcode.layout`), in both cases by the table of fields alone.

**Taking apart.** `Instruction.operands` are the numbers that an instruction is assembled from. An
operation assembles the operands of its own instructions, as far as these fit, and nothing else
(`Opcode.assemble_eq_ok`). Everything else is read off an instruction that fits: its operation
accepts its operands (`Opcode.accepts_operands`), its word is laid out from them
(`Opcode.word_eq_layout`), and it is read from that word.

**Putting together.** For operands that are accepted there is an instruction
(`Opcode.exists_assemble_iff`): bytes for two or three fields, and for a move two sides whose sorts
are the bits of the mode.

**Theorem (`assembled_iff_accepted`).** What is assembled from which mnemonic and operands, and that
every word which means something can be assembled.
-/

namespace ByteBasic

/-! ## What an operation accepts -/

/-- The values of a field are below its limit. -/
def OperandField.limit : OperandField → Nat
  | .mode => 4
  | .reg | .src | .dest | .src1 | .src2 | .amount => 16
  | .address | .value | .target | .port => 256

/-- The bits that a field takes up in a word; a mode has a whole nibble. -/
def OperandField.room : OperandField → Nat
  | .address | .value | .target | .port => 8
  | .mode | .reg | .src | .dest | .src1 | .src2 | .amount => 4

/-- The operands are as many as the operation takes, each of them fits its field, and the sides of a
move that are special are numbers of special registers. -/
structure Opcode.Accepts (op : Opcode) (operands : List UInt16) : Prop where
  count : operands.length = op.fields.length
  bounded : ∀ slot ∈ op.fields.zip operands, slot.2.toNat < slot.1.limit
  special : ∀ mode source dest, op = .move → operands = [mode, source, dest] →
    (mode.toNat.testBit 0 → source.toNat ≤ 2) ∧ (mode.toNat.testBit 1 → dest.toNat ≤ 2)

/-- The number with the operands in their fields, the last one in the least significant bits. -/
def OperandField.number (slots : List (OperandField × UInt16)) : Nat :=
  slots.foldl (fun n slot => 2 ^ slot.1.room * n + slot.2.toNat) 0

/-- The word with the operation in its first digit and the operands in their fields behind it. -/
def Opcode.layout (op : Opcode) (operands : List UInt16) : UInt16 :=
  UInt16.ofNat (4096 * op.number + OperandField.number (op.fields.zip operands))

/-- The operands that an instruction is assembled from, in the order of the fields. -/
def Instruction.operands : Instruction → List UInt16
  | .loadMem r v | .load r v | .store r v | .jump _ r v | .storePort r v | .loadPort r v =>
    [r.toUInt16, v.toUInt16]
  | .move source dest =>
    [(moveMode source dest).toUInt16, source.index.toUInt16, dest.index.toUInt16]
  | .alu _ d a b => [d.toUInt16, a.toUInt16, b.toUInt16]
  | .rotate r n => [r.toUInt16, n.toUInt16]
  | .noOp | .halt | .unknown _ => []

/-! ## Operands that are checked -/

theorem except_bind_eq_ok {ε α β : Type} {result : Except ε α} {f : α → Except ε β} {b : β} :
    (result >>= f) = .ok b ↔ ∃ a, result = .ok a ∧ f a = .ok b := by
  cases result <;> simp [bind, Except.bind]

theorem toUInt16_toUInt8_of_lt {value : UInt16} (h : value.toNat < 256) :
    value.toUInt8.toUInt16 = value := by
  apply UInt16.toNat_inj.1
  rw [UInt8.toNat_toUInt16, UInt16.toNat_toUInt8, Nat.mod_eq_of_lt h]

namespace OperandField

theorem limit_eq (field : OperandField) : field.limit = 2 ^ field.bits := by
  cases field <;> rfl

theorem limit_le (field : OperandField) : field.limit ≤ 256 := by
  cases field <;> decide

theorem check_of_lt {field : OperandField} {value : UInt16} (h : value.toNat < field.limit) :
    field.check value = .ok value.toUInt8 := by
  rw [check, if_pos ((BitField.fits_iff _ _).2 (by rwa [← limit_eq]))]

theorem check_eq_ok {field : OperandField} {value : UInt16} {byte : UInt8} :
    field.check value = .ok byte ↔ value = byte.toUInt16 ∧ byte.toNat < field.limit := by
  constructor
  · intro h
    unfold check at h
    split at h
    next hfits =>
      have hlt : value.toNat < field.limit := by
        rw [limit_eq]
        exact (BitField.fits_iff _ _).1 hfits
      have hbyte := toUInt16_toUInt8_of_lt (Nat.lt_of_lt_of_le hlt field.limit_le)
      cases h
      refine ⟨hbyte.symm, ?_⟩
      rwa [← UInt8.toNat_toUInt16, hbyte]
    next => cases h
  · rintro ⟨rfl, hlt⟩
    rw [check_of_lt (by rwa [UInt8.toNat_toUInt16]), UInt8.toUInt8_toUInt16]

end OperandField

theorem checkPair_eq_ok {first second : OperandField} {a b : UInt16}
    {build : UInt8 → UInt8 → Instruction} {instruction : Instruction} :
    checkPair first second a b build = .ok instruction ↔
      ∃ x y, (a = x.toUInt16 ∧ x.toNat < first.limit) ∧ (b = y.toUInt16 ∧ y.toNat < second.limit) ∧
        build x y = instruction := by
  simp only [checkPair, except_bind_eq_ok, OperandField.check_eq_ok, pure, Except.pure,
    Except.ok.injEq, exists_and_left]

theorem checkAlu_eq_ok {op : AluOp} {d a b : UInt16} {instruction : Instruction} :
    checkAlu op d a b = .ok instruction ↔
      ∃ x y z, (d = x.toUInt16 ∧ x.toNat < 16) ∧ (a = y.toUInt16 ∧ y.toNat < 16) ∧
        (b = z.toUInt16 ∧ z.toNat < 16) ∧ .alu op x y z = instruction := by
  simp only [checkAlu, except_bind_eq_ok, OperandField.check_eq_ok, pure, Except.pure,
    Except.ok.injEq, exists_and_left, OperandField.limit]

/-- A side is the one with the given sort and number, which has to fit its field. -/
theorem Side.assemble_eq_ok {field : OperandField} {special : Bool} {index : UInt16} {side : Side} :
    Side.assemble field special index = .ok side ↔
      side.isSpecial = special ∧ index = side.index.toUInt16 ∧ side.index.toNat < field.limit := by
  rw [Side.assemble, except_bind_eq_ok]
  constructor
  · rintro ⟨byte, hcheck, h⟩
    split at h
    next side' hside =>
      cases h
      obtain ⟨hspecial, rfl⟩ := Side.ofIndex?_eq_some.1 hside
      exact ⟨hspecial, OperandField.check_eq_ok.1 hcheck⟩
    next => cases h
  · rintro ⟨hspecial, hcheck⟩
    refine ⟨side.index, OperandField.check_eq_ok.2 hcheck, ?_⟩
    rw [Side.ofIndex?_eq_some.2 ⟨hspecial, rfl⟩]

/-! ## What is assembled -/

theorem assemble_move {mode source dest : UInt16} {instruction : Instruction} :
    Opcode.move.assemble [mode, source, dest] = .ok instruction ↔
      ∃ s d, (mode = (moveMode s d).toUInt16) ∧
        (source = s.index.toUInt16 ∧ s.index.toNat < 16) ∧
        (dest = d.index.toUInt16 ∧ d.index.toNat < 16) ∧ .move s d = instruction := by
  simp only [Opcode.assemble, except_bind_eq_ok, OperandField.check_eq_ok, Side.assemble_eq_ok,
    pure, Except.pure, Except.ok.injEq, OperandField.limit]
  constructor
  · rintro ⟨byte, ⟨rfl, hbyte⟩, s, ⟨hsource, hs⟩, d, ⟨hdest, hd⟩, rfl⟩
    have hfits : BitField.fits byte.toBitVec OperandField.mode.bits = true :=
      (BitField.fits_iff _ _).2 hbyte
    exact ⟨s, d, by rw [moveMode_eq hfits hsource hdest], hs, hd, rfl⟩
  · rintro ⟨s, d, rfl, hs, hd, rfl⟩
    obtain ⟨hsource, hdest, hlt, -⟩ := moveMode_bits s d
    exact ⟨moveMode s d, ⟨rfl, hlt⟩, s, ⟨hsource.symm, hs⟩, d, ⟨hdest.symm, hd⟩, rfl⟩

/-- An operation assembles the operands of its own instructions, as far as they fit. -/
theorem Opcode.assemble_eq_ok {op : Opcode} {operands : List UInt16} {instruction : Instruction} :
    op.assemble operands = .ok instruction ↔
      instruction.opcode? = some op ∧ instruction.operands = operands ∧ instruction.Fits := by
  constructor
  · intro h
    unfold Opcode.assemble at h
    split at h
    case h_1 | h_2 => cases h; exact ⟨rfl, rfl, by decide⟩
    -- The operations with a register and a byte, of which every byte fits.
    case h_3 | h_4 | h_5 | h_6 | h_7 | h_8 | h_9 =>
      obtain ⟨x, y, ⟨rfl, hx⟩, ⟨rfl, -⟩, rfl⟩ := checkPair_eq_ok.1 h
      exact ⟨rfl, rfl, (Instruction.fits_register rfl).2 hx⟩
    case h_10 =>
      obtain ⟨x, y, ⟨rfl, hx⟩, ⟨rfl, hy⟩, rfl⟩ := checkPair_eq_ok.1 h
      exact ⟨rfl, rfl, Instruction.fits_rotate.2 ⟨hx, hy⟩⟩
    case h_11 | h_12 | h_13 | h_14 | h_15 =>
      obtain ⟨x, y, z, ⟨rfl, hx⟩, ⟨rfl, hy⟩, ⟨rfl, hz⟩, rfl⟩ := checkAlu_eq_ok.1 h
      exact ⟨rfl, rfl, Instruction.fits_alu.2 ⟨hx, hy, hz⟩⟩
    case h_16 =>
      obtain ⟨s, d, rfl, ⟨rfl, hs⟩, ⟨rfl, hd⟩, rfl⟩ := assemble_move.1 h
      exact ⟨rfl, rfl, Instruction.fits_move.2 ⟨hs, hd⟩⟩
    -- Any other number of operands.
    case h_17 => cases h
  · rintro ⟨hop, rfl, hfits⟩
    cases instruction with
    | unknown word => cases hop
    | noOp | halt => cases hop; rfl
    | loadMem r v | load r v | store r v | storePort r v | loadPort r v =>
      cases hop
      have hr : r.toNat < 16 := (Instruction.fits_register rfl).1 hfits
      exact checkPair_eq_ok.2 ⟨r, v, ⟨rfl, hr⟩, ⟨rfl, v.toNat_lt⟩, rfl⟩
    | jump test r v =>
      have hr : r.toNat < 16 := (Instruction.fits_register rfl).1 hfits
      cases test <;> cases hop <;>
        exact checkPair_eq_ok.2 ⟨r, v, ⟨rfl, hr⟩, ⟨rfl, v.toNat_lt⟩, rfl⟩
    | rotate r n =>
      cases hop
      obtain ⟨hr, hn⟩ := Instruction.fits_rotate.1 hfits
      exact checkPair_eq_ok.2 ⟨r, n, ⟨rfl, hr⟩, ⟨rfl, hn⟩, rfl⟩
    | alu op d a b =>
      obtain ⟨hd, ha, hb⟩ := Instruction.fits_alu.1 hfits
      cases op <;> cases hop <;>
        exact checkAlu_eq_ok.2 ⟨d, a, b, ⟨rfl, hd⟩, ⟨rfl, ha⟩, ⟨rfl, hb⟩, rfl⟩
    | move source dest =>
      cases hop
      obtain ⟨hs, hd⟩ := Instruction.fits_move.1 hfits
      exact assemble_move.2 ⟨source, dest, rfl, ⟨rfl, hs⟩, ⟨rfl, hd⟩, rfl⟩

/-! ## Operands that an operation accepts -/

theorem AluOp.fields_opcode (op : AluOp) : op.opcode.fields = [.dest, .src1, .src2] := by
  cases op <;> rfl

theorem JumpTest.fields_opcode (test : JumpTest) : test.opcode.fields = [.reg, .target] := by
  cases test <;> rfl

namespace Opcode

variable {op : Opcode} {first second third : OperandField}

theorem accepts_pair (hfields : op.fields = [first, second]) {a b : UInt16} :
    op.Accepts [a, b] ↔ a.toNat < first.limit ∧ b.toNat < second.limit := by
  constructor
  · rintro ⟨-, hbounded, -⟩
    simpa [hfields] using hbounded
  · intro h
    exact ⟨by rw [hfields]; rfl, by simpa [hfields] using h, fun _ _ _ _ heq => by cases heq⟩

theorem accepts_triple (hfields : op.fields = [first, second, third]) (hmove : op ≠ .move)
    {a b c : UInt16} :
    op.Accepts [a, b, c] ↔
      a.toNat < first.limit ∧ b.toNat < second.limit ∧ c.toNat < third.limit := by
  constructor
  · rintro ⟨-, hbounded, -⟩
    simpa [hfields] using hbounded
  · intro h
    exact ⟨by rw [hfields]; rfl, by simpa [hfields] using h, fun _ _ _ heq => absurd heq hmove⟩

theorem accepts_move {mode source dest : UInt16} :
    Opcode.move.Accepts [mode, source, dest] ↔
      mode.toNat < 4 ∧
        (source.toNat < 16 ∧ (mode.toNat.testBit 0 → source.toNat ≤ 2)) ∧
        (dest.toNat < 16 ∧ (mode.toNat.testBit 1 → dest.toNat ≤ 2)) := by
  constructor
  · rintro ⟨-, hbounded, hspecial⟩
    have hspecial' := hspecial mode source dest rfl rfl
    simp only [fields, List.zip_cons_cons, List.zip_nil_right, List.forall_mem_cons,
      OperandField.limit] at hbounded
    exact ⟨hbounded.1, ⟨hbounded.2.1, hspecial'.1⟩, hbounded.2.2.1, hspecial'.2⟩
  · rintro ⟨hmode, ⟨hs, hsource⟩, hd, hdest⟩
    refine ⟨rfl, ?_, fun _ _ _ _ heq => ?_⟩
    · simp [fields, OperandField.limit, hmode, hs, hd]
    · cases heq
      exact ⟨hsource, hdest⟩

end Opcode

theorem exists_side {special : Bool} {index : UInt16} (h : index.toNat < 16)
    (hspecial : special = true → index.toNat ≤ 2) :
    ∃ side : Side, side.isSpecial = special ∧ index = side.index.toUInt16 ∧
      side.index.toNat < 16 := by
  cases special with
  | false =>
    have hindex := toUInt16_toUInt8_of_lt (Nat.lt_trans h (by decide))
    refine ⟨.general index.toUInt8, rfl, hindex.symm, ?_⟩
    rwa [← hindex, UInt8.toNat_toUInt16] at h
  | true =>
    have hle := hspecial rfl
    have hall : ∀ n ≤ 2, ∃ register : SpecialRegister,
        UInt16.ofNat n = register.index.toUInt16 ∧ register.index.toNat < 16 := by
      intro n hn
      match n, hn with
      | 0, _ => exact ⟨.programCounter, rfl, by decide⟩
      | 1, _ => exact ⟨.stack, rfl, by decide⟩
      | 2, _ => exact ⟨.exitCode, rfl, by decide⟩
    obtain ⟨register, hregister, hlt⟩ := hall index.toNat hle
    rw [UInt16.ofNat_toNat] at hregister
    exact ⟨.special register, rfl, hregister, hlt⟩

theorem index_le_of_isSpecial {side : Side} (h : side.isSpecial = true) :
    side.index.toNat ≤ 2 := by
  cases side with
  | general r => cases h
  | special register => cases register <;> decide

theorem moveMode_testBit (source dest : Side) :
    (moveMode source dest).toNat.testBit 0 = source.isSpecial ∧
      (moveMode source dest).toNat.testBit 1 = dest.isSpecial := by
  unfold moveMode
  generalize source.isSpecial = s
  generalize dest.isSpecial = d
  revert s d
  decide

/-- A mode is made of the bit of each side. -/
theorem eq_moveMode {mode : UInt16} {source dest : Side} (h : mode.toNat < 4)
    (hsource : source.isSpecial = mode.toNat.testBit 0)
    (hdest : dest.isSpecial = mode.toNat.testBit 1) :
    mode = (moveMode source dest).toUInt16 := by
  have hall : ∀ n < 4, UInt16.ofNat n = ((if n.testBit 0 then 1 else 0) +
      (if n.testBit 1 then 2 else 0) : UInt8).toUInt16 := by decide
  have hmode := hall mode.toNat h
  rw [UInt16.ofNat_toNat] at hmode
  rwa [moveMode, hsource, hdest]

theorem exists_byte {field : OperandField} {value : UInt16} (h : value.toNat < field.limit) :
    ∃ byte : UInt8, value = byte.toUInt16 ∧ byte.toNat < field.limit :=
  ⟨value.toUInt8, OperandField.check_eq_ok.1 (OperandField.check_of_lt h)⟩

namespace Opcode

/-- The operands of an instruction that fits are accepted by its operation. -/
theorem accepts_operands {op : Opcode} {instruction : Instruction}
    (hop : instruction.opcode? = some op) (hfits : instruction.Fits) :
    op.Accepts instruction.operands := by
  cases instruction with
  | unknown word => cases hop
  | noOp | halt =>
    cases hop
    exact ⟨rfl, by decide, fun _ _ _ hmove => by cases hmove⟩
  | loadMem r v | load r v | store r v | storePort r v | loadPort r v =>
    cases hop
    have hr : r.toNat < 16 := (Instruction.fits_register rfl).1 hfits
    exact (accepts_pair rfl).2 (by simpa [OperandField.limit] using ⟨hr, v.toNat_lt⟩)
  | jump test r v =>
    cases hop
    have hr : r.toNat < 16 := (Instruction.fits_register rfl).1 hfits
    exact (accepts_pair test.fields_opcode).2
      (by simpa [OperandField.limit] using ⟨hr, v.toNat_lt⟩)
  | rotate r n =>
    cases hop
    exact (accepts_pair rfl).2 (by simpa [OperandField.limit] using Instruction.fits_rotate.1 hfits)
  | alu op d a b =>
    cases hop
    have hmove : op.opcode ≠ .move := by cases op <;> decide
    exact (accepts_triple op.fields_opcode hmove).2
      (by simpa [OperandField.limit] using Instruction.fits_alu.1 hfits)
  | move source dest =>
    cases hop
    obtain ⟨hs, hd⟩ := Instruction.fits_move.1 hfits
    -- The bits of the mode say which of the sides have to be special registers.
    obtain ⟨hsource, hdest⟩ := moveMode_testBit source dest
    refine accepts_move.2 ?_
    simp only [UInt8.toNat_toUInt16, hsource, hdest]
    exact ⟨(moveMode_bits source dest).2.2.1, ⟨hs, index_le_of_isSpecial⟩, hd,
      index_le_of_isSpecial⟩

theorem exists_assemble_pair {op : Opcode} {first second : OperandField} {operands : List UInt16}
    {build : UInt8 → UInt8 → Instruction} (h : op.Accepts operands)
    (hfields : op.fields = [first, second])
    (hassemble : ∀ a b, op.assemble [a, b] = checkPair first second a b build) :
    ∃ instruction, op.assemble operands = .ok instruction := by
  obtain ⟨a, b, rfl⟩ := List.length_eq_two.1 (h.count.trans (by rw [hfields]; rfl))
  obtain ⟨ha, hb⟩ := (accepts_pair hfields).1 h
  obtain ⟨x, hx⟩ := exists_byte ha
  obtain ⟨y, hy⟩ := exists_byte hb
  exact ⟨_, (hassemble a b).trans (checkPair_eq_ok.2 ⟨x, y, hx, hy, rfl⟩)⟩

theorem exists_assemble_triple (op : AluOp) {operands : List UInt16}
    (h : op.opcode.Accepts operands)
    (hassemble : ∀ d a b, op.opcode.assemble [d, a, b] = checkAlu op d a b) :
    ∃ instruction, op.opcode.assemble operands = .ok instruction := by
  have hmove : op.opcode ≠ .move := by cases op <;> decide
  obtain ⟨d, a, b, rfl⟩ := List.length_eq_three.1 (h.count.trans (by rw [op.fields_opcode]; rfl))
  obtain ⟨hd, ha, hb⟩ := (accepts_triple op.fields_opcode hmove).1 h
  obtain ⟨x, hx⟩ := exists_byte hd
  obtain ⟨y, hy⟩ := exists_byte ha
  obtain ⟨z, hz⟩ := exists_byte hb
  exact ⟨_, (hassemble d a b).trans (checkAlu_eq_ok.2 ⟨x, y, z, hx, hy, hz, rfl⟩)⟩

/-- An operation assembles what it accepts and nothing else. -/
theorem exists_assemble_iff {op : Opcode} {operands : List UInt16} :
    (∃ instruction, op.assemble operands = .ok instruction) ↔ op.Accepts operands := by
  constructor
  · rintro ⟨instruction, h⟩
    obtain ⟨hop, rfl, hfits⟩ := assemble_eq_ok.1 h
    exact accepts_operands hop hfits
  · intro h
    cases op with
    | noOp | halt =>
      cases List.length_eq_zero_iff.1 h.count
      exact ⟨_, rfl⟩
    | loadMem | load | store | rotate | jumpEqual | storePort | loadPort | jumpLess =>
      exact exists_assemble_pair h rfl fun _ _ => rfl
    | add => exact exists_assemble_triple .add h fun _ _ _ => rfl
    | addFloat => exact exists_assemble_triple .addFloat h fun _ _ _ => rfl
    | or => exact exists_assemble_triple .or h fun _ _ _ => rfl
    | and => exact exists_assemble_triple .and h fun _ _ _ => rfl
    | xor => exact exists_assemble_triple .xor h fun _ _ _ => rfl
    | move =>
      obtain ⟨mode, source, dest, rfl⟩ := List.length_eq_three.1 h.count
      obtain ⟨hmode, ⟨hs, hsource⟩, hd, hdest⟩ := accepts_move.1 h
      obtain ⟨s, hspecial, hs⟩ := exists_side hs hsource
      obtain ⟨d, hspecial', hd⟩ := exists_side hd hdest
      exact ⟨_, assemble_move.2 ⟨s, d, eq_moveMode hmode hspecial hspecial', hs, hd, rfl⟩⟩

end Opcode

/-! ## Words of operands -/

namespace Opcode

variable {op : Opcode} {first second third : OperandField}

theorem byteWord_eq_layout (hfields : op.fields = [first, second]) (hroom : second.room = 8)
    {register : UInt8} (h : register.toNat < 16) (value : UInt8) :
    byteWord op register value = op.layout [register.toUInt16, value.toUInt16] := by
  have hop := op.number_lt
  have hvalue := value.toNat_lt
  apply UInt16.toNat_inj.1
  rw [toNat_byteWord op h, layout, hfields]
  simp only [OperandField.number, List.zip_cons_cons, List.zip_nil_right, List.foldl_cons,
    List.foldl_nil, UInt8.toNat_toUInt16, UInt16.toNat_ofNat', hroom]
  omega

theorem nibbleWord_eq_layout (hfields : op.fields = [first, second, third])
    (hroom : second.room = 4) (hroom' : third.room = 4) {a b c : UInt8} (ha : a.toNat < 16)
    (hb : b.toNat < 16) (hc : c.toNat < 16) :
    nibbleWord op a b c = op.layout [a.toUInt16, b.toUInt16, c.toUInt16] := by
  have hop := op.number_lt
  apply UInt16.toNat_inj.1
  rw [toNat_nibbleWord op ha hb hc, layout, hfields]
  simp only [OperandField.number, List.zip_cons_cons, List.zip_nil_right, List.foldl_cons,
    List.foldl_nil, UInt8.toNat_toUInt16, UInt16.toNat_ofNat', hroom, hroom']
  omega

/-- Two operands of a nibble each leave the digit behind the operation zero. -/
theorem nibbleWord_eq_layout_pair (hfields : op.fields = [first, second]) (hroom : second.room = 4)
    {b c : UInt8} (hb : b.toNat < 16) (hc : c.toNat < 16) :
    nibbleWord op 0 b c = op.layout [b.toUInt16, c.toUInt16] := by
  have hop := op.number_lt
  have hzero : (0 : UInt8).toNat < 16 := by decide
  apply UInt16.toNat_inj.1
  rw [toNat_nibbleWord op hzero hb hc, layout, hfields]
  simp only [OperandField.number, List.zip_cons_cons, List.zip_nil_right, List.foldl_cons,
    List.foldl_nil, UInt8.toNat_toUInt16, UInt16.toNat_ofNat', UInt8.toNat_zero, hroom]
  omega

/-- The word of an instruction that fits has its operands in their fields. -/
theorem word_eq_layout {instruction : Instruction} (hop : instruction.opcode? = some op)
    (hfits : instruction.Fits) : instruction.word = op.layout instruction.operands := by
  cases instruction with
  | unknown word => cases hop
  | noOp | halt =>
    cases hop
    decide
  | loadMem r v | load r v | store r v | storePort r v | loadPort r v =>
    cases hop
    exact byteWord_eq_layout rfl rfl ((Instruction.fits_register rfl).1 hfits) v
  | jump test r v =>
    cases hop
    exact byteWord_eq_layout test.fields_opcode rfl ((Instruction.fits_register rfl).1 hfits) v
  | rotate r n =>
    cases hop
    obtain ⟨hr, hn⟩ := Instruction.fits_rotate.1 hfits
    exact nibbleWord_eq_layout_pair rfl rfl hr hn
  | alu op d a b =>
    cases hop
    obtain ⟨hd, ha, hb⟩ := Instruction.fits_alu.1 hfits
    exact nibbleWord_eq_layout op.fields_opcode rfl rfl hd ha hb
  | move source dest =>
    cases hop
    obtain ⟨hs, hd⟩ := Instruction.fits_move.1 hfits
    have hm : (moveMode source dest).toNat < 16 :=
      Nat.lt_of_lt_of_le (moveMode_bits source dest).2.2.1 (by decide)
    exact nibbleWord_eq_layout rfl rfl rfl hm hs hd

end Opcode

/-! ## Mnemonics -/

theorem Opcode.ofMnemonic?_eq_some {mnemonic : String} {op : Opcode} :
    Opcode.ofMnemonic? mnemonic = some op ↔ op.mnemonic = mnemonic := by
  constructor
  · intro h
    simpa using List.find?_some h
  · rintro rfl
    cases op <;> decide

namespace Instruction

theorem assemble_eq_ok {mnemonic : String} {operands : List UInt16} {instruction : Instruction} :
    assemble mnemonic operands = .ok instruction ↔
      ∃ op : Opcode, op.mnemonic = mnemonic ∧ op.assemble operands = .ok instruction := by
  unfold assemble
  constructor
  · intro h
    split at h
    next op hop => exact ⟨op, Opcode.ofMnemonic?_eq_some.1 hop, h⟩
    next => cases h
  · rintro ⟨op, hop, h⟩
    rw [Opcode.ofMnemonic?_eq_some.2 hop]
    exact h

theorem mnemonic_of_opcode? {instruction : Instruction} {op : Opcode}
    (h : instruction.opcode? = some op) : instruction.mnemonic = op.mnemonic := by
  rw [mnemonic, h]

theorem exists_opcode? {instruction : Instruction} (known : ∀ word, instruction ≠ .unknown word) :
    ∃ op, instruction.opcode? = some op := by
  cases instruction with
  | unknown word => exact absurd rfl (known word)
  | _ => exact ⟨_, rfl⟩

end Instruction

/-- A mnemonic and operands are assembled exactly if the mnemonic is that of an operation that
accepts the operands. The instruction then has that mnemonic, its word has the operands in their
fields, and it is read from that word. Every word that is not unknown is read as an instruction that
can be assembled. -/
theorem assembled_iff_accepted :
    (∀ (mnemonic : String) (operands : List UInt16),
      ((∃ instruction, Instruction.assemble mnemonic operands = .ok instruction) ↔
        ∃ op : Opcode, op.mnemonic = mnemonic ∧ op.Accepts operands) ∧
      ∀ instruction, Instruction.assemble mnemonic operands = .ok instruction →
        instruction.mnemonic = mnemonic ∧
        ∃ op : Opcode, op.mnemonic = mnemonic ∧
          instruction.encode = .ok (op.layout operands) ∧
          Instruction.decode (op.layout operands) = instruction) ∧
    ∀ word : UInt16, (∀ other, Instruction.decode word ≠ .unknown other) →
      ∃ mnemonic operands,
        Instruction.assemble mnemonic operands = .ok (Instruction.decode word) := by
  refine ⟨fun mnemonic operands => ⟨?_, ?_⟩, ?_⟩
  · constructor
    · rintro ⟨instruction, h⟩
      obtain ⟨op, hop, h⟩ := Instruction.assemble_eq_ok.1 h
      exact ⟨op, hop, Opcode.exists_assemble_iff.1 ⟨instruction, h⟩⟩
    · rintro ⟨op, hop, haccepts⟩
      obtain ⟨instruction, h⟩ := Opcode.exists_assemble_iff.2 haccepts
      exact ⟨instruction, Instruction.assemble_eq_ok.2 ⟨op, hop, h⟩⟩
  · intro instruction h
    obtain ⟨op, hmnemonic, h⟩ := Instruction.assemble_eq_ok.1 h
    obtain ⟨hop, rfl, hfits⟩ := Opcode.assemble_eq_ok.1 h
    have hword := Opcode.word_eq_layout hop hfits
    have hknown : ∀ word, instruction ≠ .unknown word := by
      rintro word rfl
      cases hop
    refine ⟨(Instruction.mnemonic_of_opcode? hop).trans hmnemonic, op, hmnemonic, ?_, ?_⟩
    · exact Instruction.encode_eq_ok_iff.2 ⟨hfits, hword.symm⟩
    · rw [← hword]
      exact Instruction.decode_word hfits hknown
  · intro word hknown
    obtain ⟨op, hop⟩ := Instruction.exists_opcode? hknown
    refine ⟨op.mnemonic, (Instruction.decode word).operands, ?_⟩
    exact Instruction.assemble_eq_ok.2 ⟨op, rfl,
      Opcode.assemble_eq_ok.2 ⟨hop, rfl, Instruction.fits_decode word⟩⟩

/-- A move between two special registers, one with a special register that does not exist, and a
rotation read from a word whose second digit means nothing. -/
theorem assembled_iff_accepted_move :
    (∃ op : Opcode, op.mnemonic = "MOVE" ∧
      Instruction.encode (.move (.special .stack) (.special .exitCode)) =
        .ok (op.layout [3, 1, 2]) ∧
      Instruction.decode (op.layout [3, 1, 2]) = .move (.special .stack) (.special .exitCode)) ∧
    (¬ ∃ op : Opcode, op.mnemonic = "MOVE" ∧ op.Accepts [3, 1, 3]) ∧
    ∃ mnemonic operands, Instruction.assemble mnemonic operands = .ok (.rotate 15 2) := by
  refine ⟨?_, ?_, ?_⟩
  · have hmove : Instruction.assemble "MOVE" [3, 1, 2] =
        .ok (.move (.special .stack) (.special .exitCode)) := by decide
    exact ((assembled_iff_accepted.1 "MOVE" [3, 1, 2]).2 _ hmove).2
  · have hnone : Instruction.assemble "MOVE" [3, 1, 3] = .error (.unknownSpecial 3) := by decide
    rw [← (assembled_iff_accepted.1 "MOVE" [3, 1, 3]).1]
    rintro ⟨instruction, h⟩
    cases hnone.symm.trans h
  · have hrotate : Instruction.decode 0xA7F2 = .rotate 15 2 := by decide
    rw [← hrotate]
    exact assembled_iff_accepted.2 0xA7F2 (by simp [hrotate])

end ByteBasic
