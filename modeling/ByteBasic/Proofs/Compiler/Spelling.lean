import ByteBasic.Proofs.Compiler.Operands
import ByteBasic.Proofs.Source.Printing
import Mathlib.Data.List.Forall2
import Mathlib.Data.Nat.Digits.Defs

/-!
# What operand words denote

**Theorem (`words_denote_as_spelled`).** A word denotes the variable of its name if there is one in
scope. Otherwise it denotes what it spells, and it is refused as a value if it spells nothing.

What a word spells is said here without the readers: `Numeral base text n` when each character of
the text is the digit of a number below the base and these numbers are the digits of `n`, and
`Referent.Spelled` for the forms of words that are built of numerals. The decimal reader takes
numerals of any length and folds over them, so it is compared with `Nat.ofDigits` by induction; the
hexadecimal one takes two digits at most (`Hex.readByte?_eq_some_iff`). That the compiler tries the
forms one after the other does not show in the result, because no text has two of them: a decimal
numeral has no letter, and each other form starts in its own way.
-/

namespace ByteBasic

/-! ## Numerals -/

/-- The character is the digit of a number below the base, in either letter case. -/
def IsDigit (base : Nat) (c : Char) (d : Nat) : Prop :=
  d < base ∧ (c = Nat.digitChar d ∨ c = (Nat.digitChar d).toUpper)

instance (base : Nat) (c : Char) (d : Nat) : Decidable (IsDigit base c d) :=
  inferInstanceAs (Decidable (_ ∧ _))

/-- The text is a numeral of a number: one digit or more, the most significant one first. -/
def Numeral (base : Nat) (text : List Char) (n : Nat) : Prop :=
  ∃ digits ≠ [], List.Forall₂ (IsDigit base) text digits ∧ Nat.ofDigits base digits.reverse = n

/-- The text is a hexadecimal numeral of one or two digits. -/
def ShortHex (text : List Char) (n : Nat) : Prop :=
  Numeral 16 text n ∧ text.length ≤ 2

variable {base n : Nat} {c c' : Char} {d : Nat} {text : List Char} {digits : List Nat}

theorem Numeral.ne_nil (h : Numeral base text n) : text ≠ [] := by
  rintro rfl
  obtain ⟨digits, hne, hdigits, -⟩ := h
  exact hne (List.forall₂_nil_left_iff.1 hdigits)

theorem numeral_singleton : Numeral base [c] n ↔ IsDigit base c n := by
  constructor
  · rintro ⟨digits, -, hdigits, rfl⟩
    obtain ⟨d, rest, hd, hrest, rfl⟩ := List.forall₂_cons_left_iff.1 hdigits
    rw [List.forall₂_nil_left_iff.1 hrest, List.reverse_singleton, Nat.ofDigits_singleton]
    exact hd
  · intro h
    exact ⟨[n], by simp, .cons h .nil, by simp⟩

theorem numeral_pair : Numeral base [c, c'] n ↔
    ∃ d d', IsDigit base c d ∧ IsDigit base c' d' ∧ base * d + d' = n := by
  constructor
  · rintro ⟨digits, -, hdigits, rfl⟩
    obtain ⟨d, rest, hd, hrest, rfl⟩ := List.forall₂_cons_left_iff.1 hdigits
    obtain ⟨d', rest', hd', hrest', rfl⟩ := List.forall₂_cons_left_iff.1 hrest
    rw [List.forall₂_nil_left_iff.1 hrest']
    exact ⟨d, d', hd, hd', by simp [Nat.ofDigits_cons, Nat.add_comm]⟩
  · rintro ⟨d, d', hd, hd', rfl⟩
    exact ⟨[d, d'], by simp, .cons hd (.cons hd' .nil), by simp [Nat.ofDigits_cons, Nat.add_comm]⟩

theorem ofNat_eq_iff {byte : UInt8} (h : n < 256) : UInt8.ofNat n = byte ↔ n = byte.toNat := by
  rw [← UInt8.toNat_inj, UInt8.toNat_ofNat_of_lt' h]

namespace Decimal

theorem isDigit_iff : IsDigit 10 c d ↔ c.isDigit ∧ c.toNat - '0'.toNat = d := by
  constructor
  · rintro ⟨hd, hc⟩
    have hupper : ∀ d < 10, (Nat.digitChar d).toUpper = Nat.digitChar d := by decide
    rw [hupper d hd, or_self] at hc
    subst hc
    exact ⟨by simpa [Nat.isDigit_digitChar] using hd, by simp [Nat.toNat_digitChar_of_lt_ten hd]⟩
  · rintro ⟨hc, rfl⟩
    have hrange := Char.isDigit_iff_toNat.1 hc
    have hlow : '0'.toNat = 48 := rfl
    have hhigh : '9'.toNat = 57 := rfl
    refine ⟨by omega, .inl (Char.toNat_inj.1 ?_)⟩
    rw [Nat.toNat_digitChar_of_lt_ten (by omega)]
    omega

/-- The fold of the reader with the digits before the text taken as `n`. -/
theorem foldl_eq_ofDigits (h : List.Forall₂ (IsDigit 10) text digits) (n : Nat) :
    text.foldl (fun n c => 10 * n + (c.toNat - '0'.toNat)) n =
      Nat.ofDigits 10 digits.reverse + 10 ^ digits.length * n := by
  induction h generalizing n with
  | nil => simp
  | @cons c d text digits hd _ ih =>
    rw [List.foldl_cons, ih, (isDigit_iff.1 hd).2, List.reverse_cons, Nat.ofDigits_append,
      Nat.ofDigits_singleton, List.length_reverse, List.length_cons]
    ring

theorem value_eq_ofDigits (h : List.Forall₂ (IsDigit 10) text digits) :
    value text = Nat.ofDigits 10 digits.reverse :=
  (foldl_eq_ofDigits h 0).trans (by simp)

theorem isNumeral_iff : isNumeral text ↔ ∃ digits, List.Forall₂ (IsDigit 10) text digits := by
  constructor
  · intro h
    refine ⟨text.map fun c => c.toNat - '0'.toNat, ?_⟩
    rw [List.forall₂_map_right_iff, List.forall₂_same]
    exact fun c hc => isDigit_iff.2 ⟨List.all_eq_true.1 h c hc, rfl⟩
  · rintro ⟨digits, h⟩
    induction h with
    | nil => rfl
    | cons hd _ ih => exact Bool.and_eq_true_iff.2 ⟨(isDigit_iff.1 hd).1, ih⟩

theorem numeral_iff : Numeral 10 text n ↔ text ≠ [] ∧ isNumeral text ∧ value text = n := by
  constructor
  · intro h
    have hne := h.ne_nil
    obtain ⟨digits, -, hdigits, rfl⟩ := h
    exact ⟨hne, isNumeral_iff.2 ⟨digits, hdigits⟩, value_eq_ofDigits hdigits⟩
  · rintro ⟨hne, hnumeral, rfl⟩
    obtain ⟨digits, hdigits⟩ := isNumeral_iff.1 hnumeral
    refine ⟨digits, ?_, hdigits, (value_eq_ofDigits hdigits).symm⟩
    rintro rfl
    exact hne (List.forall₂_nil_right_iff.1 hdigits)

/-- The numerals that are read are those of the bytes. -/
theorem readByte?_eq_some_iff {byte : UInt8} :
    isNumeral text ∧ readByte? text = some byte ↔ Numeral 10 text byte.toNat := by
  rw [numeral_iff, readByte?]
  constructor
  · rintro ⟨hnumeral, h⟩
    split at h
    next hread =>
      exact ⟨hread.1, hnumeral, (ofNat_eq_iff (Nat.lt_succ_of_le hread.2)).1 (Option.some_inj.1 h)⟩
    next => cases h
  · rintro ⟨hne, hnumeral, hvalue⟩
    have hlt : value text < 256 := hvalue ▸ byte.toNat_lt
    exact ⟨hnumeral, by rw [if_pos ⟨hne, Nat.le_of_lt_succ hlt⟩, (ofNat_eq_iff hlt).2 hvalue]⟩

end Decimal

namespace Hex

theorem digitValue?_eq_some_iff : digitValue? c = some d ↔ IsDigit 16 c d := by
  constructor
  · intro h
    have hall : ∀ n < 103, ∀ d ∈ digitValue? (Char.ofNat n), IsDigit 16 (Char.ofNat n) d := by
      decide
    have hle : c.toNat < 103 := by
      unfold digitValue? at h
      have hbound : ∀ last : Char, last.toNat < 103 → c ≤ last → c.toNat < 103 :=
        fun last hlast hc => Nat.lt_of_le_of_lt hc hlast
      split_ifs at h with hdigit hupper hlower
      · exact hbound '9' (by decide) hdigit.2
      · exact hbound 'F' (by decide) hupper.2
      · exact hbound 'f' (by decide) hlower.2
    simpa using hall c.toNat hle d (by simpa using h)
  · rintro ⟨hd, hc⟩
    have hall : ∀ d < 16, digitValue? (Nat.digitChar d) = some d ∧
        digitValue? (Nat.digitChar d).toUpper = some d := by decide
    obtain ⟨hlower, hupper⟩ := hall d hd
    rcases hc with rfl | rfl
    · exact hlower
    · exact hupper

/-- The numerals that are read are those of one or two digits. -/
theorem readByte?_eq_some_iff {byte : UInt8} :
    readByte? text = some byte ↔ ShortHex text byte.toNat := by
  unfold ShortHex
  match text with
  | [] => exact ⟨nofun, fun h => absurd rfl h.1.ne_nil⟩
  | [low] =>
    rw [numeral_singleton, ← digitValue?_eq_some_iff, readByte?, Option.map_eq_some_iff]
    constructor
    · rintro ⟨d, hd, hbyte⟩
      have hlt := (digitValue?_eq_some_iff.1 hd).1
      rw [ofNat_eq_iff (by omega)] at hbyte
      exact ⟨hbyte ▸ hd, by simp⟩
    · rintro ⟨hd, -⟩
      exact ⟨_, hd, UInt8.ofNat_toNat⟩
  | [high, low] =>
    simp only [numeral_pair, ← digitValue?_eq_some_iff, readByte?, Option.bind_eq_bind,
      Option.bind_eq_some_iff]
    constructor
    · rintro ⟨d, hd, d', hd', hbyte⟩
      have hlt := (digitValue?_eq_some_iff.1 hd).1
      have hlt' := (digitValue?_eq_some_iff.1 hd').1
      exact ⟨⟨d, d', hd, hd', (ofNat_eq_iff (by omega)).1 (Option.some_inj.1 hbyte)⟩, by simp⟩
    · rintro ⟨⟨d, d', hd, hd', hbyte⟩, -⟩
      refine ⟨d, hd, d', hd', ?_⟩
      rw [hbyte]
      exact congrArg some UInt8.ofNat_toNat
  | _ :: _ :: _ :: _ => simp [readByte?]

end Hex

/-! ## Words -/

namespace Referent

/-- What a word spells. No word spells a variable: these go by their names. -/
inductive Spelled : List Char → Referent → Prop
  | decimal {text : List Char} {value : UInt8} (h : Numeral 10 text value.toNat) :
    Spelled text (.literal value)
  | hexadecimal {x : Char} {digits : List Char} {value : UInt8} (hx : x = 'x' ∨ x = 'X')
    (h : ShortHex digits value.toNat) : Spelled ('0' :: x :: digits) (.literal value)
  | register {digits : List Char} {register : Register} (h : ShortHex digits register.val) :
    Spelled ('r' :: digits) (.register register)
  | memory {digits : List Char} {address : UInt8} (h : ShortHex digits address.toNat) :
    Spelled ('m' :: digits) (.memory address)
  | port {digits : List Char} {address : UInt8} (h : ShortHex digits address.toNat) :
    Spelled ('p' :: digits) (.port address)

theorem ofByte?_eq_some_iff {number : UInt8} {register : Register} :
    Register.ofByte? number = some register ↔ number.toNat = register.val := by
  unfold Register.ofByte?
  split
  next => rw [Option.some_inj, Fin.ext_iff]
  next hlarge => exact ⟨nofun, fun h => absurd (h ▸ register.isLt) hlarge⟩

theorem hexDigits?_eq_some_iff {digits : List Char} : hexDigits? text = some digits ↔
    ∃ x, (x = 'x' ∨ x = 'X') ∧ text = '0' :: x :: digits := by
  constructor
  · intro h
    unfold hexDigits? at h
    split at h <;> cases h
    · exact ⟨'x', .inl rfl, rfl⟩
    · exact ⟨'X', .inr rfl, rfl⟩
  · rintro ⟨x, rfl | rfl, rfl⟩ <;> rfl

theorem spelled_of_ofCell {word : String} {referent : Referent}
    (h : ofCell word text = .ok referent) : Spelled text referent := by
  unfold ofCell at h
  split at h
  next digits =>
    split at h
    next number hnumber =>
      split at h
      next register hregister =>
        cases h
        rw [Hex.readByte?_eq_some_iff, ofByte?_eq_some_iff.1 hregister] at hnumber
        exact .register hnumber
      next => cases h
    next => cases h
  next digits =>
    split at h <;> cases h
    exact .memory (Hex.readByte?_eq_some_iff.1 ‹_›)
  next digits =>
    split at h <;> cases h
    exact .port (Hex.readByte?_eq_some_iff.1 ‹_›)
  next => cases h

theorem spelled_of_ofSpelling {word : String} {referent : Referent}
    (h : ofSpelling word = .ok referent) : Spelled word.toList referent := by
  unfold ofSpelling at h
  split at h
  next digits hdigits =>
    obtain ⟨x, hx, htext⟩ := hexDigits?_eq_some_iff.1 hdigits
    rw [htext]
    split at h <;> cases h
    exact .hexadecimal hx (Hex.readByte?_eq_some_iff.1 ‹_›)
  next =>
    split at h
    next hnumeral =>
      split at h <;> cases h
      exact .decimal (Decimal.readByte?_eq_some_iff.1 ⟨hnumeral, ‹_›⟩)
    next => exact spelled_of_ofCell h

/-- A decimal numeral is not taken for a hexadecimal one. -/
theorem hexDigits?_of_isNumeral (h : Decimal.isNumeral text) : hexDigits? text = none := by
  rw [Option.eq_none_iff_forall_ne_some]
  intro digits hdigits
  obtain ⟨x, hx, rfl⟩ := hexDigits?_eq_some_iff.1 hdigits
  rcases hx with rfl | rfl <;> simp [Decimal.isNumeral] at h

theorem ofSpelling_of_spelled {word : String} {referent : Referent}
    (h : Spelled word.toList referent) : ofSpelling word = .ok referent := by
  generalize htext : word.toList = text at h
  unfold ofSpelling
  rw [htext]
  cases h with
  | decimal h =>
    obtain ⟨hnumeral, hread⟩ := Decimal.readByte?_eq_some_iff.2 h
    rw [hexDigits?_of_isNumeral hnumeral]
    simp only [hnumeral, hread, if_true]
  | hexadecimal hx h =>
    rw [hexDigits?_eq_some_iff.2 ⟨_, hx, rfl⟩]
    simp only [Hex.readByte?_eq_some_iff.2 h]
  | @register digits register h =>
    rw [← register.toNat_byte] at h
    have hregister : Register.ofByte? register.byte = some register :=
      ofByte?_eq_some_iff.2 register.toNat_byte
    simp [hexDigits?, Decimal.isNumeral, ofCell, Hex.readByte?_eq_some_iff.2 h, hregister]
  | memory h =>
    simp [hexDigits?, Decimal.isNumeral, ofCell, Hex.readByte?_eq_some_iff.2 h]
  | port h =>
    simp [hexDigits?, Decimal.isNumeral, ofCell, Hex.readByte?_eq_some_iff.2 h]

/-- A word is read as what it spells, in whatever order the forms are tried. -/
theorem ofSpelling_eq_ok_iff {word : String} {referent : Referent} :
    ofSpelling word = .ok referent ↔ Spelled word.toList referent :=
  ⟨spelled_of_ofSpelling, ofSpelling_of_spelled⟩

end Referent

theorem exitCode_eq_ok_iff {word : String} {code : UInt8} :
    Source.exitCode word = .ok code ↔ Numeral 10 word.toList code.toNat := by
  rw [← Decimal.readByte?_eq_some_iff, Source.exitCode]
  constructor
  · intro h
    split at h
    next hnumeral =>
      split at h <;> cases h
      exact ⟨hnumeral, ‹_›⟩
    next => cases h
  · rintro ⟨hnumeral, hread⟩
    simp only [hnumeral, hread, if_true]

open Referent Source in
/-- A word denotes the variable of its name, otherwise what it spells, and is refused as a value if it
does neither. The word of an exit is a decimal numeral of a byte. -/
theorem words_denote_as_spelled :
    (∀ (storage : Storage) (scope : Scope) (word : String), IsWord word →
      (∀ id, ofOperand storage scope (.word word) = .ok (.variable id) ↔
        storage.lookup? word scope = some id) ∧
      (storage.lookup? word scope = none → ∀ referent,
        ofOperand storage scope (.word word) = .ok referent ↔ Spelled word.toList referent) ∧
      ((∃ error, ofOperand storage scope (.word word) = .error error ∧ error.kind = .value) ↔
        storage.lookup? word scope = none ∧ ∀ referent, ¬ Spelled word.toList referent)) ∧
    ∀ (word : String) (code : UInt8),
      exitCode word = .ok code ↔ Numeral 10 word.toList code.toNat := by
  refine ⟨fun storage scope word _ => ?_, fun _ _ => exitCode_eq_ok_iff⟩
  rw [ofOperand, ofWord]
  cases storage.lookup? word scope with
  | some id => simp [eq_comm]
  | none =>
    refine ⟨fun id => by simp [not_variable_ofSpelling], fun _ _ => ofSpelling_eq_ok_iff, ?_⟩
    simp only [← ofSpelling_eq_ok_iff, true_and]
    cases hword : ofSpelling word with
    | error error => simpa using kind_ofSpelling hword
    | ok referent => simp

open Referent Source in
/-- A register by two digits of both cases, where no variable has that name. -/
theorem words_denote_as_spelled_register :
    ofOperand .empty .global (.word "r0F") = .ok (.register 15) := by
  have hdigits : Numeral 16 ['0', 'F'] 15 :=
    numeral_pair.2 ⟨0, 15, by decide, by decide, rfl⟩
  have hword : IsWord "r0F" := by decide
  exact ((words_denote_as_spelled.1 .empty .global "r0F" hword).2.1 rfl _).2
    (.register ⟨hdigits, by decide⟩)

end ByteBasic
