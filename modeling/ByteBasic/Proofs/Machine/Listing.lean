import ByteBasic.Proofs.Machine.Assembling
import ByteBasic.Proofs.Machine.Reencoding
import Mathlib.Data.List.Basic

/-!
# Listings

The text of an instruction shows its operands in one of a dozen forms, and a listing shows a line
for each word of an image. Both can be told apart by what they show.

**Numerals.** A numeral has no fixed length, but its value is the number that it was made of
(`Hex.value_numeral`), however many zeros are in front.

**Instructions.** A text is a row of words with blanks between them and none in them
(`Instruction.text_eq`), so the words are found again by cutting it (`Instruction.splitOn_text`).
The first word is the mnemonic, or `JUMP` for both jumps, and it says how to read the others
(`Instruction.ofWords?`). Reading finds every instruction again (`Instruction.ofText?_text`).

**Listings.** A line shows its word in four digits behind the offset of the line. Two listings that
are the same show the same words, one line after the other (`Image.listing_eq_iff`).

**Theorem (`listings_are_unambiguous`).** No two instructions have the same text, and no two lists
of bytes the same listing unless they are the same when padded to an even number.
-/

namespace ByteBasic

/-! ## Numerals -/

namespace Hex

/-- The number that a run of hexadecimal digits denotes. -/
def value (text : List Char) : Nat :=
  text.foldl (fun n c => 16 * n + (digitValue? c).getD 0) 0

theorem value_concat (text : List Char) (case : Case) (d : Fin 16) :
    value (text ++ [digit case d]) = 16 * value text + d := by
  rw [value, List.foldl_append, List.foldl_cons, List.foldl_nil, digitValue?_digit,
    Option.getD_some, value]

theorem value_digits (case : Case) (n : Nat) : value (digits case n) = n := by
  fun_induction digits case n with
  | case1 n h =>
    have hvalue := value_concat [] case ⟨n, h⟩
    rwa [List.nil_append, show value [] = 0 from rfl, Nat.mul_zero, Nat.zero_add] at hvalue
  | case2 n h ih =>
    have hvalue := value_concat (digits case (n / 16)) case ⟨n % 16, Nat.mod_lt _ (by decide)⟩
    rw [hvalue, ih, Nat.div_add_mod]

/-- Zeros in front do not change the value. -/
theorem value_leftpad (width : Nat) (text : List Char) :
    value (text.leftpad width '0') = value text := by
  have hzeros : ∀ count, (List.replicate count '0').foldl
      (fun n c => 16 * n + (digitValue? c).getD 0) 0 = 0 := by
    intro count
    induction count with
    | zero => rfl
    | succ count ih => exact ih
  rw [value, List.leftpad, List.foldl_append, hzeros, value]

/-- A numeral denotes the number that it was made of. -/
theorem value_numeral (width n : Nat) : value (numeral width n).toList = n := by
  rw [numeral, String.toList_ofList, value_leftpad, value_digits]

theorem numeral_inj {width m n : Nat} : numeral width m = numeral width n ↔ m = n := by
  constructor
  · intro h
    rw [← value_numeral width m, h, value_numeral]
  · exact congrArg _

theorem exists_digit_of_mem {case : Case} {n : Nat} {c : Char} (h : c ∈ digits case n) :
    ∃ d : Fin 16, c = digit case d := by
  fun_induction digits case n with
  | case1 n hlt => exact ⟨⟨n, hlt⟩, List.mem_singleton.1 h⟩
  | case2 n hge ih =>
    rcases List.mem_append.1 h with h | h
    · exact ih h
    · exact ⟨⟨n % 16, Nat.mod_lt _ (by decide)⟩, List.mem_singleton.1 h⟩

theorem blank_not_mem_numeral (width n : Nat) : ' ' ∉ (numeral width n).toList := by
  rw [numeral, String.toList_ofList, List.leftpad, List.mem_append, not_or]
  refine ⟨fun h => absurd (List.eq_of_mem_replicate h) (by decide), fun h => ?_⟩
  obtain ⟨d, hd⟩ := exists_digit_of_mem h
  revert d
  decide

theorem length_digits_le (case : Case) {n count : Nat} (h : n < 16 ^ (count + 1)) :
    (digits case n).length ≤ count + 1 := by
  fun_induction digits case n generalizing count with
  | case1 n hlt => simp
  | case2 n hge ih =>
    rw [List.length_append, List.length_singleton]
    cases count with
    | zero => omega
    | succ count =>
      have hrest := ih (Nat.div_lt_of_lt_mul (by rwa [Nat.pow_succ, Nat.mul_comm] at h))
      omega

/-- A number that has no more digits than the width has a numeral of this width. -/
theorem length_numeral {n width : Nat} (h : n < 16 ^ (width + 1)) :
    (numeral (width + 1) n).toList.length = width + 1 := by
  rw [numeral, String.toList_ofList, List.length_leftpad]
  exact Nat.max_eq_left (length_digits_le .upper h)

end Hex

/-! ## The words of a text -/

namespace Instruction

def words (instruction : Instruction) : List String :=
  let name := instruction.mnemonic
  match instruction with
  | .noOp | .halt => [name]
  | .loadMem r m => [name, cellText "m" m, "-->", registerText r]
  | .load r i => [name, cellText "0x" i, "-->", registerText r]
  | .store r m => [name, registerText r, "-->", cellText "m" m]
  | .move source dest => [name, source.text, "-->", dest.text]
  | .alu op d a b =>
    [name, registerText a, op.sign, registerText b, "-->", registerText d]
  | .rotate r n =>
    [name, registerText r, "by", "0x" ++ Hex.numeral 1 n.toNat, "-->", registerText r]
  | .jump test r t => ["JUMP", "IF", registerText r, test.sign, "r0", "TO", cellText "i" t]
  | .storePort r p => [name, registerText r, "-->", cellText "p" p]
  | .loadPort r p => [name, cellText "p" p, "-->", registerText r]
  | .unknown word => [name, "0x" ++ Hex.numeral 4 word.toNat]

/-- A text is its words with blanks between them. -/
theorem text_eq (instruction : Instruction) :
    instruction.text = " ".intercalate instruction.words := by
  apply String.toList_inj.1
  cases instruction <;> simp [text, words]

theorem blank_not_mem_registerText (register : UInt8) : ' ' ∉ (registerText register).toList := by
  simp [registerText, Hex.blank_not_mem_numeral]

theorem blank_not_mem_cellText {space : String} (h : ' ' ∉ space.toList) (address : UInt8) :
    ' ' ∉ (cellText space address).toList := by
  simp [cellText, h, Hex.blank_not_mem_numeral]

theorem blank_not_mem_sideText (side : Side) : ' ' ∉ side.text.toList := by
  cases side with
  | general register => exact blank_not_mem_registerText register
  | special register => cases register <;> decide

theorem blank_not_mem_mnemonic (instruction : Instruction) :
    ' ' ∉ instruction.mnemonic.toList := by
  have hall : ∀ op : Opcode, ' ' ∉ op.mnemonic.toList := by
    intro op
    cases op <;> decide
  rw [mnemonic]
  split
  · exact hall _
  · decide

/-- No word of a text has a blank. -/
theorem blank_not_mem_of_mem_words {instruction : Instruction} {word : String}
    (h : word ∈ instruction.words) : ' ' ∉ word.toList := by
  have hname := blank_not_mem_mnemonic instruction
  have hregister := blank_not_mem_registerText
  revert word
  cases instruction with
  | noOp | halt => simpa [words] using hname
  | loadMem r a | load r a | store r a | storePort r a | loadPort r a =>
    simp [words, hname, hregister, blank_not_mem_cellText]
  | move source dest => simp [words, hname, blank_not_mem_sideText]
  | alu op d a b => cases op <;> simp [words, hname, hregister, AluOp.sign]
  | rotate r n => simp [words, hname, hregister, Hex.blank_not_mem_numeral]
  | jump test r t => cases test <;> simp [words, hregister, blank_not_mem_cellText, JumpTest.sign]
  | unknown word => simp [words, hname, Hex.blank_not_mem_numeral]

theorem words_ne_nil (instruction : Instruction) : instruction.words ≠ [] := by
  cases instruction <;> simp [words]

theorem splitOn_text (instruction : Instruction) :
    (instruction.text.toList.splitOn ' ').map String.ofList = instruction.words := by
  have hblank : ∀ text ∈ instruction.words.map String.toList, ' ' ∉ text := by
    simpa using fun word => blank_not_mem_of_mem_words
  have hsome : instruction.words.map String.toList ≠ [] := by simpa using words_ne_nil instruction
  rw [text_eq, String.toList_intercalate, show " ".toList = [' '] from rfl,
    List.splitOn_intercalate ' ' hblank hsome, List.map_map]
  simp

end Instruction

/-! ## Reading a text -/

/-- The number that a word shows behind a mark. -/
def numberBehind? (mark word : String) : Option Nat :=
  (word.toList.dropPrefix? mark.toList).map Hex.value

/-- The byte that a word shows behind a mark. -/
def byteBehind? (mark word : String) : Option UInt8 :=
  (numberBehind? mark word).map UInt8.ofNat

/-- The side of a move that a word names: a register of either sort. -/
def Side.ofText? (word : String) : Option Side :=
  match byteBehind? "r" word with
  | some register => some (.general register)
  | none =>
    ([.programCounter, .stack, .exitCode].find? fun register : SpecialRegister =>
      register.name == word).map .special

/-- The test that a sign in a listing stands for. -/
def JumpTest.ofSign? (sign : String) : Option JumpTest :=
  [JumpTest.equal, .less].find? fun test => test.sign == sign

/-- The arithmetic or logical operation of the three registers that words name. -/
def AluOp.ofWords? (op : AluOp) (left right dest : String) : Option Instruction := do
  let a ← byteBehind? "r" left
  let b ← byteBehind? "r" right
  let d ← byteBehind? "r" dest
  return .alu op d a b

/-- The instruction made of a register and a byte that two words show. -/
def pairOfWords? (build : UInt8 → UInt8 → Instruction) (space register cell : String) :
    Option Instruction := do
  let r ← byteBehind? "r" register
  let c ← byteBehind? space cell
  return build r c

/-- The instruction that the words behind a mnemonic stand for. -/
def Opcode.ofWords? : Opcode → List String → Option Instruction
  | .noOp, [] => some .noOp
  | .halt, [] => some .halt
  | .loadMem, [m, _, r] => pairOfWords? .loadMem "m" r m
  | .load, [i, _, r] => pairOfWords? .load "0x" r i
  | .store, [r, _, m] => pairOfWords? .store "m" r m
  | .storePort, [r, _, p] => pairOfWords? .storePort "p" r p
  | .loadPort, [p, _, r] => pairOfWords? .loadPort "p" r p
  | .rotate, [r, _, n, _, _] => pairOfWords? .rotate "0x" r n
  | .jumpEqual, [_, r, sign, _, _, t] =>
    (JumpTest.ofSign? sign).bind fun test => pairOfWords? (.jump test) "i" r t
  | .move, [source, _, dest] => do
    let source ← Side.ofText? source
    let dest ← Side.ofText? dest
    return .move source dest
  | .add, [a, _, b, _, d] => AluOp.add.ofWords? a b d
  | .addFloat, [a, _, b, _, d] => AluOp.addFloat.ofWords? a b d
  | .or, [a, _, b, _, d] => AluOp.or.ofWords? a b d
  | .and, [a, _, b, _, d] => AluOp.and.ofWords? a b d
  | .xor, [a, _, b, _, d] => AluOp.xor.ofWords? a b d
  | _, _ => none

namespace Instruction

/-- The instruction that words stand for. A first word that is no mnemonic is put in front of a word
that means nothing. -/
def ofWords? : List String → Option Instruction
  | [] => none
  | name :: words =>
    match Opcode.ofMnemonic? name with
    | some op => op.ofWords? words
    | none => words.head?.bind fun word =>
        (numberBehind? "0x" word).map fun n => .unknown (UInt16.ofNat n)

def ofText? (text : String) : Option Instruction :=
  ofWords? ((text.toList.splitOn ' ').map String.ofList)

end Instruction

theorem numberBehind?_append (mark : String) (width n : Nat) :
    numberBehind? mark (mark ++ Hex.numeral width n) = some n := by
  rw [numberBehind?, String.toList_append, List.dropPrefix?_append_of_beq _ (beq_self_eq_true _),
    Option.map_some, Hex.value_numeral]

theorem byteBehind?_append (mark : String) (width : Nat) (byte : UInt8) :
    byteBehind? mark (mark ++ Hex.numeral width byte.toNat) = some byte := by
  rw [byteBehind?, numberBehind?_append, Option.map_some, UInt8.ofNat_toNat]

theorem byteBehind?_registerText (register : UInt8) :
    byteBehind? "r" (registerText register) = some register :=
  byteBehind?_append "r" 1 register

theorem Side.ofText?_text (side : Side) : Side.ofText? side.text = some side := by
  cases side with
  | general register => rw [Side.ofText?, Side.text, byteBehind?_registerText]
  | special register => cases register <;> decide

theorem JumpTest.ofSign?_sign (test : JumpTest) : JumpTest.ofSign? test.sign = some test := by
  cases test <;> decide

theorem pairOfWords?_append (build : UInt8 → UInt8 → Instruction) (space : String) (width : Nat)
    (register cell : UInt8) :
    pairOfWords? build space (registerText register) (space ++ Hex.numeral width cell.toNat) =
      some (build register cell) := by
  rw [pairOfWords?, byteBehind?_registerText, byteBehind?_append]
  rfl

theorem AluOp.ofWords?_text (op : AluOp) (d a b : UInt8) :
    op.opcode.ofWords? [registerText a, op.sign, registerText b, "-->", registerText d] =
      some (.alu op d a b) := by
  cases op <;> simp [Opcode.ofWords?, AluOp.opcode, AluOp.ofWords?, byteBehind?_registerText]

namespace Instruction

theorem ofWords?_mnemonic (op : Opcode) (words : List String) :
    ofWords? (op.mnemonic :: words) = op.ofWords? words := by
  simp only [ofWords?, Opcode.ofMnemonic?_eq_some.2 (Eq.refl op.mnemonic)]

/-- Reading finds the operands in the words that show them. -/
theorem ofWords?_words (instruction : Instruction) :
    ofWords? instruction.words = some instruction := by
  cases instruction with
  | noOp => exact ofWords?_mnemonic .noOp _
  | halt => exact ofWords?_mnemonic .halt _
  | loadMem r m => exact (ofWords?_mnemonic .loadMem _).trans (pairOfWords?_append _ "m" 2 r m)
  | load r i => exact (ofWords?_mnemonic .load _).trans (pairOfWords?_append _ "0x" 2 r i)
  | store r m => exact (ofWords?_mnemonic .store _).trans (pairOfWords?_append _ "m" 2 r m)
  | storePort r p => exact (ofWords?_mnemonic .storePort _).trans (pairOfWords?_append _ "p" 2 r p)
  | loadPort r p => exact (ofWords?_mnemonic .loadPort _).trans (pairOfWords?_append _ "p" 2 r p)
  | rotate r n => exact (ofWords?_mnemonic .rotate _).trans (pairOfWords?_append _ "0x" 1 r n)
  | move source dest =>
    refine (ofWords?_mnemonic .move _).trans ?_
    simp [Opcode.ofWords?, Side.ofText?_text]
  | alu op d a b => exact (ofWords?_mnemonic op.opcode _).trans (AluOp.ofWords?_text op d a b)
  | jump test r t =>
    refine (ofWords?_mnemonic .jumpEqual _).trans ?_
    rw [Opcode.ofWords?, JumpTest.ofSign?_sign, Option.bind_some]
    exact pairOfWords?_append _ "i" 2 r t
  | unknown word =>
    have hword := numberBehind?_append "0x" 4 word.toNat
    have hname : Opcode.ofMnemonic? "UNKNOWN" = none := by decide
    show ofWords? ["UNKNOWN", "0x" ++ Hex.numeral 4 word.toNat] = _
    simp only [ofWords?, hname, List.head?_cons, Option.bind_some, hword, Option.map_some,
      UInt16.ofNat_toNat]

/-- An instruction is found again from its text. -/
theorem ofText?_text (instruction : Instruction) : ofText? instruction.text = some instruction := by
  rw [ofText?, splitOn_text, ofWords?_words]

theorem text_inj {i j : Instruction} : i.text = j.text ↔ i = j := by
  constructor
  · intro h
    apply Option.some_inj.1
    rw [← ofText?_text i, h, ofText?_text]
  · exact congrArg text

end Instruction

/-! ## Listings -/

namespace Image

/-- The lines of words, the first one at place `place`. -/
def lines (place : Nat) (words : List UInt16) : String :=
  String.join ((words.zipIdx place).map fun (word, index) => listingLine (2 * index) word ++ "\n")

theorem lines_cons (place : Nat) (word : UInt16) (words : List UInt16) :
    lines place (word :: words) =
      listingLine (2 * place) word ++ "\n" ++ lines (place + 1) words := by
  simp [lines]

theorem lines_cons_ne (place : Nat) (word : UInt16) (words : List UInt16) :
    lines place (word :: words) ≠ lines place [] := by
  intro h
  have hfeed : '\n' ∈ (lines place (word :: words)).toList := by
    rw [lines_cons]
    simp
  rw [h] at hfeed
  exact absurd hfeed (by simp [lines])

/-- The digits of the word stand at the same place in all lines with one offset. -/
theorem word_of_listingLine {offset : Nat} {word word' : UInt16} {rest rest' : String}
    (h : listingLine offset word ++ rest = listingLine offset word' ++ rest') : word = word' := by
  have hlength : ∀ word : UInt16, (Hex.numeral 4 word.toNat).toList.length = 4 := fun word =>
    Hex.length_numeral word.toNat_lt
  have hchars := congrArg String.toList h
  simp only [listingLine, String.append_assoc, String.toList_append, List.append_cancel_left_eq]
    at hchars
  have hdigits := (List.append_inj hchars ((hlength word).trans (hlength word').symm)).1
  exact UInt16.toNat_inj.1 (Hex.numeral_inj.1 (String.toList_inj.1 hdigits))

theorem lines_inj {place : Nat} {words words' : List UInt16} :
    lines place words = lines place words' ↔ words = words' := by
  constructor
  · intro h
    induction words generalizing place words' with
    | nil =>
      cases words' with
      | nil => rfl
      | cons word' words' => exact absurd h.symm (lines_cons_ne place word' words')
    | cons word words ih =>
      cases words' with
      | nil => exact absurd h (lines_cons_ne place word words)
      | cons word' words' =>
        rw [lines_cons, lines_cons, String.append_assoc, String.append_assoc] at h
        obtain rfl := word_of_listingLine h
        rw [String.append_right_inj, String.append_right_inj] at h
        rw [ih h]
  · exact congrArg _

theorem listing_eq_iff {image image' : Image} :
    image.listing = image'.listing ↔ image.words = image'.words :=
  lines_inj

/-- A list of bytes is read like the list that is padded to an even number. -/
theorem words_eq_iff {bytes bytes' : List UInt8} :
    (Image.mk bytes).words = (Image.mk bytes').words ↔ padded bytes = padded bytes' := by
  constructor
  · intro h
    have hpadded := ofWords_words bytes
    rw [h, ofWords_words] at hpadded
    exact (Image.mk.inj hpadded).symm
  · intro h
    rw [← words_ofWords (Image.mk bytes).words, ofWords_words, h, ← ofWords_words, words_ofWords]

end Image

/-- **Listings are unambiguous.** Two instructions have the same text only if they are the same,
whatever bytes their operands are and whatever word means nothing. Two lists of bytes have the same
listing exactly if they are the same when padded with a zero to an even number. -/
theorem listings_are_unambiguous :
    (∀ i j : Instruction, i.text = j.text ↔ i = j) ∧
      ∀ bytes bytes' : List UInt8,
        (Image.mk bytes).listing = (Image.mk bytes').listing ↔ padded bytes = padded bytes' := by
  refine ⟨fun i j => Instruction.text_inj, fun bytes bytes' => ?_⟩
  rw [Image.listing_eq_iff, Image.words_eq_iff]

end ByteBasic
