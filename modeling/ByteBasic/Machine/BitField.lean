/-!
# Bit fields

A word is made of fields side by side, the first one at the least significant bit. `packWord` builds
a word from its fields and `unpackWord` takes one apart, given the widths alone; both walk along the
fields with the bit at which the next one starts. A value too wide for its field loses its higher
bits; `fits` says when that cannot happen.
-/

namespace ByteBasic

/-- A field of a word: its width in bits and the byte put into it. -/
structure BitField where
  width : Nat
  value : UInt8
  deriving DecidableEq

namespace BitField

/-- The bits of a field that is put into a word, moved down to the least significant bit. The field is
narrower than the word. -/
def packMask (width : Nat) : UInt16 :=
  (1 <<< UInt16.ofNat width) - 1

/-- The bits of a field that is taken out of a word, moved down to the least significant bit. A field
as wide as the word has them all. -/
def unpackMask (width : Nat) : UInt16 :=
  (if width < 16 then 1 <<< UInt16.ofNat width else 0) - 1

/-- Puts fields side by side into a word, the first one at bit `offset`. -/
def packFrom (offset : Nat) (word : UInt16) : List BitField → UInt16
  | [] => word
  | field :: fields =>
    packFrom (offset + field.width)
      (word ||| (field.value.toUInt16 &&& packMask field.width) <<< UInt16.ofNat offset) fields

/-- The word whose bits are the fields, least significant field first. -/
def packWord (fields : List BitField) : UInt16 :=
  packFrom 0 0 fields

/-- Takes fields of the given widths out of a word, the first one at bit `offset`. A field keeps its
low eight bits. -/
def unpackFrom (word : UInt16) (offset : Nat) : List Nat → List UInt8
  | [] => []
  | width :: widths =>
    ((word >>> UInt16.ofNat offset) &&& unpackMask width).toUInt8 ::
      unpackFrom word (offset + width) widths

/-- The fields of the given widths in `word`, least significant first. -/
def unpackWord (widths : List Nat) (word : UInt16) : List UInt8 :=
  unpackFrom word 0 widths

/-- Whether a field of `bits` bits holds `value` whole: it is as wide as the value's own type, or
nothing is left of the value beyond it. -/
def fits {n : Nat} (value : BitVec n) (bits : Nat) : Bool :=
  n ≤ bits || value >>> bits == 0#n

end BitField

end ByteBasic
