import ByteBasic.Machine.BitField
import Mathlib.Algebra.GroupWithZero.Nat

/-!
# Fields side by side

Fields are put into a word and taken out of it by masks and shifts, at an offset that runs along with
the fields. As numbers, they are digits of different sizes: `pack` is the number that has them as its
digits, and `unpack` takes the digits off again. As long as the word has room for the fields, no shift
is as long as the word and no field touches another, so the masks and shifts come to the same
(`toNat_packWord`, `unpackWord_eq`).

**Theorem (`fields_are_found_again`).** Fields that a word has room for are found again in it, each
with the bits that its width and a byte can hold, and unchanged if they fit. Fields of a word that are
no wider than a byte make its low bits again. A value fits exactly if it is below the power of two of
the width.
-/

namespace ByteBasic.BitField

/-! ## Fields as digits -/

/-- The number whose digits are the fields, least significant field first. -/
def pack : List BitField → Nat
  | [] => 0
  | field :: fields => field.value.toNat % 2 ^ field.width + 2 ^ field.width * pack fields

/-- The low eight bits of the digits of the given widths in `bits`, least significant first. -/
def unpack : List Nat → Nat → List UInt8
  | [], _ => []
  | width :: widths, bits => UInt8.ofNat (bits % 2 ^ width) :: unpack widths (bits / 2 ^ width)

/-- The widths of fields that a word has room for. -/
structure Room (widths : List Nat) : Prop where
  pos : ∀ width ∈ widths, 1 ≤ width
  sum_le : widths.sum ≤ 16

/-- What a field keeps of its value. -/
def kept (field : BitField) : UInt8 :=
  UInt8.ofNat (field.value.toNat % 2 ^ min field.width 8)

theorem toNat_kept (field : BitField) :
    field.kept.toNat = field.value.toNat % 2 ^ min field.width 8 := by
  have hlt := field.value.toNat_lt
  rw [kept, UInt8.toNat_ofNat', Nat.mod_eq_of_lt (Nat.lt_of_le_of_lt (Nat.mod_le _ _) hlt)]

/-- A field wider than a byte keeps all of a byte. -/
theorem kept_eq (field : BitField) :
    field.kept = UInt8.ofNat (field.value.toNat % 2 ^ field.width) := by
  unfold kept
  rcases Nat.le_total field.width 8 with hle | hle
  · rw [Nat.min_eq_left hle]
  · have hbyte := field.value.toNat_lt
    have hwide : field.value.toNat < 2 ^ field.width :=
      Nat.lt_of_lt_of_le hbyte (Nat.pow_le_pow_right (by decide) hle)
    rw [Nat.min_eq_right hle, Nat.mod_eq_of_lt hbyte, Nat.mod_eq_of_lt hwide]

/-- The digits of a number made of fields are what the fields keep. -/
theorem unpack_pack (fields : List BitField) :
    unpack (fields.map width) (pack fields) = fields.map kept := by
  induction fields with
  | nil => rfl
  | cons field fields ih =>
    have hlow : field.value.toNat % 2 ^ field.width < 2 ^ field.width :=
      Nat.mod_lt _ (Nat.two_pow_pos _)
    have hdigit : pack (field :: fields) % 2 ^ field.width =
        field.value.toNat % 2 ^ field.width := by
      rw [pack, Nat.add_mul_mod_self_left, Nat.mod_mod]
    have hrest : pack (field :: fields) / 2 ^ field.width = pack fields := by
      rw [pack, Nat.add_mul_div_left _ _ (Nat.two_pow_pos _), Nat.div_eq_of_lt hlow, Nat.zero_add]
    rw [List.map_cons, List.map_cons, unpack, hdigit, hrest, ih, kept_eq]

/-- Digits that a byte can hold make the number again that they were taken from. -/
theorem pack_unpack {widths : List Nat} (h : ∀ width ∈ widths, width ≤ 8) (bits : Nat) :
    pack (List.zipWith mk widths (unpack widths bits)) = bits % 2 ^ widths.sum := by
  induction widths generalizing bits with
  | nil => exact (Nat.mod_one bits).symm
  | cons width widths ih =>
    have hbyte : bits % 2 ^ width < 256 := Nat.lt_of_lt_of_le (Nat.mod_lt _ (Nat.two_pow_pos _))
      (Nat.pow_le_pow_right (by decide) (h width (List.mem_cons_self ..)))
    have hrest := ih (fun w hw => h w (List.mem_cons_of_mem _ hw)) (bits / 2 ^ width)
    rw [unpack, List.zipWith_cons_cons, pack, hrest, List.sum_cons, Nat.pow_add, Nat.mod_mul,
      UInt8.toNat_ofNat', Nat.mod_eq_of_lt hbyte, Nat.mod_mod]

/-- Fields made of digits have the widths of the digits. -/
theorem map_width_unpack (widths : List Nat) (bits : Nat) :
    (List.zipWith mk widths (unpack widths bits)).map width = widths := by
  induction widths generalizing bits with
  | nil => rfl
  | cons width widths ih => rw [unpack, List.zipWith_cons_cons, List.map_cons, ih]

/-! ## Masks and shifts -/

theorem toNat_packMask {width : Nat} (h : width < 16) : (packMask width).toNat = 2 ^ width - 1 := by
  revert width
  decide

theorem toNat_unpackMask {width : Nat} (h : width < 17) :
    (unpackMask width).toNat = 2 ^ width - 1 := by
  revert width
  decide

/-- A shift by less than the width of the word is a shift by that much. -/
theorem toNat_shift {offset : Nat} (h : offset < 16) :
    (UInt16.ofNat offset).toNat % 16 = offset := by
  rw [UInt16.toNat_ofNat']
  omega

/-- A field goes above the bits that are there. -/
theorem toNat_putAt {word : UInt16} {offset width : Nat} (value : UInt8)
    (hlow : word.toNat < 2 ^ offset) (hpos : 1 ≤ width) (hnarrow : width < 16)
    (hroom : offset + width ≤ 16) :
    (word ||| (value.toUInt16 &&& packMask width) <<< UInt16.ofNat offset).toNat =
      word.toNat + 2 ^ offset * (value.toNat % 2 ^ width) := by
  have hfield : (value.toUInt16 &&& packMask width).toNat = value.toNat % 2 ^ width := by
    rw [UInt16.toNat_and, UInt8.toNat_toUInt16, toNat_packMask hnarrow,
      Nat.and_two_pow_sub_one_eq_mod]
  have hoffset : (UInt16.ofNat offset).toNat % 16 = offset := toNat_shift (by omega)
  have hinside : (value.toNat % 2 ^ width) <<< offset < 2 ^ 16 := by
    rw [Nat.shiftLeft_eq]
    calc value.toNat % 2 ^ width * 2 ^ offset
        < 2 ^ width * 2 ^ offset :=
          Nat.mul_lt_mul_of_pos_right (Nat.mod_lt _ (Nat.two_pow_pos _)) (Nat.two_pow_pos _)
      _ = 2 ^ (offset + width) := by rw [Nat.add_comm, Nat.pow_add]
      _ ≤ 2 ^ 16 := Nat.pow_le_pow_right (by decide) hroom
  rw [UInt16.toNat_or, UInt16.toNat_shiftLeft, hfield, hoffset, Nat.mod_eq_of_lt hinside,
    Nat.or_comm, ← Nat.shiftLeft_add_eq_or_of_lt hlow, Nat.shiftLeft_eq, Nat.add_comm,
    Nat.mul_comm]

theorem toNat_packFrom {fields : List BitField} {offset : Nat} {word : UInt16}
    (hlow : word.toNat < 2 ^ offset) (hpos : ∀ field ∈ fields, 1 ≤ field.width)
    (hnarrow : ∀ field ∈ fields, field.width < 16)
    (hroom : offset + (fields.map width).sum ≤ 16) :
    (packFrom offset word fields).toNat = word.toNat + 2 ^ offset * pack fields := by
  induction fields generalizing offset word with
  | nil => rfl
  | cons field fields ih =>
    rw [List.map_cons, List.sum_cons] at hroom
    have hput := toNat_putAt field.value hlow (hpos field (List.mem_cons_self ..))
      (hnarrow field (List.mem_cons_self ..)) (by omega)
    have hbelow : word.toNat + 2 ^ offset * (field.value.toNat % 2 ^ field.width) <
        2 ^ (offset + field.width) := by
      have hlt : field.value.toNat % 2 ^ field.width + 1 ≤ 2 ^ field.width :=
        Nat.mod_lt _ (Nat.two_pow_pos _)
      calc word.toNat + 2 ^ offset * (field.value.toNat % 2 ^ field.width)
          < 2 ^ offset * (field.value.toNat % 2 ^ field.width + 1) := by rw [Nat.mul_succ]; omega
        _ ≤ 2 ^ offset * 2 ^ field.width := Nat.mul_le_mul_left _ hlt
        _ = 2 ^ (offset + field.width) := (Nat.pow_add 2 offset field.width).symm
    rw [packFrom, ih (by rw [hput]; exact hbelow) (fun f hf => hpos f (List.mem_cons_of_mem _ hf))
      (fun f hf => hnarrow f (List.mem_cons_of_mem _ hf)) (by omega), hput, pack, Nat.mul_add,
      Nat.pow_add, Nat.mul_assoc, Nat.add_assoc]

/-- Masks and shifts put the fields into the word as its digits. -/
theorem toNat_packWord {fields : List BitField} (hroom : Room (fields.map width))
    (hnarrow : ∀ field ∈ fields, field.width < 16) : (packWord fields).toNat = pack fields := by
  have hpos : ∀ field ∈ fields, 1 ≤ field.width :=
    fun field hfield => hroom.pos _ (List.mem_map_of_mem hfield)
  have hsum : 0 + (fields.map width).sum ≤ 16 := by
    rw [Nat.zero_add]
    exact hroom.sum_le
  have hfrom : (packFrom 0 0 fields).toNat = 0 + 2 ^ 0 * pack fields :=
    toNat_packFrom (Nat.two_pow_pos 0) hpos hnarrow hsum
  rw [packWord, hfrom, Nat.zero_add, Nat.pow_zero, Nat.one_mul]

theorem unpackFrom_eq {widths : List Nat} (word : UInt16) {offset : Nat}
    (hpos : ∀ width ∈ widths, 1 ≤ width) (hroom : offset + widths.sum ≤ 16) :
    unpackFrom word offset widths = unpack widths (word.toNat / 2 ^ offset) := by
  induction widths generalizing offset with
  | nil => rfl
  | cons width widths ih =>
    rw [List.sum_cons] at hroom
    have hwidth := hpos width (List.mem_cons_self ..)
    have hoffset : (UInt16.ofNat offset).toNat % 16 = offset := toNat_shift (by omega)
    have hfield : ((word >>> UInt16.ofNat offset) &&& unpackMask width).toUInt8 =
        UInt8.ofNat (word.toNat / 2 ^ offset % 2 ^ width) := by
      apply UInt8.toNat_inj.1
      rw [UInt16.toNat_toUInt8, UInt16.toNat_and, UInt16.toNat_shiftRight, hoffset,
        toNat_unpackMask (by omega), Nat.and_two_pow_sub_one_eq_mod, Nat.shiftRight_eq_div_pow,
        UInt8.toNat_ofNat']
    rw [unpackFrom, unpack, hfield, ih (fun w hw => hpos w (List.mem_cons_of_mem _ hw)) (by omega),
      Nat.div_div_eq_div_mul, ← Nat.pow_add]

/-- Masks and shifts take the fields out of the word as its digits. -/
theorem unpackWord_eq {widths : List Nat} (hroom : Room widths) (word : UInt16) :
    unpackWord widths word = unpack widths word.toNat := by
  rw [unpackWord, unpackFrom_eq word hroom.pos (by rw [Nat.zero_add]; exact hroom.sum_le),
    Nat.pow_zero, Nat.div_one]

/-! ## Fields that fit -/

/-- A field holds the values below its power of two, and no others. -/
theorem fits_iff {n : Nat} (value : BitVec n) (bits : Nat) :
    fits value bits = true ↔ value.toNat < 2 ^ bits := by
  simp only [fits, Bool.or_eq_true, decide_eq_true_eq, beq_iff_eq]
  rw [← BitVec.toNat_inj, BitVec.toNat_ushiftRight, Nat.shiftRight_eq_div_pow, BitVec.toNat_ofNat,
    Nat.zero_mod, Nat.div_eq_zero_iff_lt (Nat.two_pow_pos bits)]
  constructor
  · rintro (hwide | hlt)
    · exact Nat.lt_of_lt_of_le value.isLt (Nat.pow_le_pow_right (by decide) hwide)
    · exact hlt
  · exact .inr

theorem kept_of_fits {field : BitField}
    (h : fits field.value.toBitVec field.width = true) : field.kept = field.value := by
  have hlt : field.value.toNat < 2 ^ field.width := (fits_iff _ _).1 h
  rw [kept_eq, Nat.mod_eq_of_lt hlt, UInt8.ofNat_toNat]

/-- **Fields are found again.** Fields that are narrower than a word, and that together a word has
room for, are taken out of the word they were put into, each as its value modulo the power of two of
its width or of eight, whichever is less; those that all fit are taken out unchanged. Fields of a word
that are no wider than a byte, put into a word again, make the bits of the word that they cover. And
a value of any type fits into a number of bits, be it less than the bits of the type or not, exactly
if it is below the power of two. -/
theorem fields_are_found_again :
    (∀ fields : List BitField, Room (fields.map width) → (∀ field ∈ fields, field.width ≤ 15) →
      (unpackWord (fields.map width) (packWord fields)).map UInt8.toNat =
          (fields.map fun field => field.value.toNat % 2 ^ min field.width 8) ∧
        ((∀ field ∈ fields, fits field.value.toBitVec field.width = true) →
          unpackWord (fields.map width) (packWord fields) = fields.map value)) ∧
    (∀ (widths : List Nat) (word : UInt16), Room widths → (∀ width ∈ widths, width ≤ 8) →
      (packWord (List.zipWith mk widths (unpackWord widths word))).toNat =
        word.toNat % 2 ^ widths.sum) ∧
    ∀ (n : Nat) (value : BitVec n) (bits : Nat),
      fits value bits = true ↔ value.toNat < 2 ^ bits := by
  refine ⟨fun fields hroom hnarrow => ?_, fun widths word hroom hbyte => ?_, fun _ => fits_iff⟩
  · have hkept : unpackWord (fields.map width) (packWord fields) = fields.map kept := by
      rw [unpackWord_eq hroom, toNat_packWord hroom fun f hf => Nat.lt_succ_of_le (hnarrow f hf),
        unpack_pack]
    rw [hkept]
    refine ⟨?_, fun hfits => List.map_congr_left fun field hfield => kept_of_fits (hfits field hfield)⟩
    rw [List.map_map]
    exact List.map_congr_left fun field _ => toNat_kept field
  · have hwidths := map_width_unpack widths word.toNat
    have hnarrow : ∀ field ∈ List.zipWith mk widths (unpack widths word.toNat),
        field.width < 16 := by
      intro field hfield
      have hmem : field.width ∈ widths := by
        rw [← hwidths]
        exact List.mem_map_of_mem hfield
      exact Nat.lt_of_le_of_lt (hbyte _ hmem) (by decide)
    rw [unpackWord_eq hroom, toNat_packWord (by rw [hwidths]; exact hroom) hnarrow,
      pack_unpack hbyte]

/-- A field of three bits that is too narrow for its value, one wider than a byte and one that ends
with the word; and the low thirteen bits of a word from fields of eight and five. -/
theorem fields_are_found_again_wide :
    let fields : List BitField := [⟨3, 0xFF⟩, ⟨9, 0xAB⟩, ⟨4, 5⟩]
    let fitting : List BitField := [⟨8, 0x41⟩, ⟨4, 1⟩, ⟨4, 15⟩]
    Room (fields.map width) ∧
      (unpackWord [3, 9, 4] (packWord fields)).map UInt8.toNat = [7, 0xAB, 5] ∧
      unpackWord [8, 4, 4] (packWord fitting) = [0x41, 1, 15] ∧
      (packWord (List.zipWith mk [8, 5] (unpackWord [8, 5] 0xB30A))).toNat = 0x130A ∧
      fits 256#16 8 = false ∧ fits 65535#16 20 = true := by
  intro fields fitting
  have hroom : Room (fields.map width) := ⟨by decide, by decide⟩
  obtain ⟨hfound, hmade, hfits⟩ := fields_are_found_again
  refine ⟨hroom, (hfound fields hroom (by decide)).1, ?_, ?_, ?_, (hfits 16 _ 20).2 (by decide)⟩
  · exact (hfound fitting ⟨by decide, by decide⟩ (by decide)).2 (by decide)
  · exact hmade [8, 5] 0xB30A ⟨by decide, by decide⟩ (by decide)
  · exact Bool.eq_false_iff.2 fun h => absurd ((hfits 16 _ 8).1 h) (by decide)

end ByteBasic.BitField
