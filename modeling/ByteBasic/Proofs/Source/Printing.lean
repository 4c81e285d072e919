import ByteBasic.Source.Parser
import Mathlib.Data.List.Forall2

/-!
# Printing statements

Every statement has one canonical line. Its words stand apart by single blanks, the arguments of a
call follow its name in parentheses, and a text stands between double quotes, where five bytes are
written behind a backslash and every other byte as the character with its number.

**Well-formedness** (`Statement.WellFormed`). Every name, label and word is a nonempty run of ASCII
letters, digits and underscores, and no assignment and no call starts with a word that starts a
statement of another kind. That a compound assignment has one operand is part of its type.

**Reading what was printed.** `Spells text tokens` says that the text is read as the tokens wherever
it stands outside a text: the search for a comment passes over it, it neither starts nor ends with a
blank, and the tokens behind it are found as if it were not there, as long as what follows does not
run into it. Words, symbols and printed texts spell one token each (`spells_word`, `spells_symbol`,
`spells_quoted`), and spelled texts can be joined.

**Theorem (`spells_print`).** The line of a well-formed statement spells the tokens of the
statement.
-/

namespace ByteBasic

/-! ## The printer -/

namespace Source

/-- The character that stands for a byte behind a backslash. -/
def escapeLetter? (byte : UInt8) : Option Char :=
  if byte = 0x5C then some '\\'
  else if byte = 0x0A then some 'n'
  else if byte = 0x09 then some 't'
  else if byte = 0x22 then some '"'
  else if byte = 0x27 then some '\x27'
  else none

/-- The character with the number of a byte. -/
def charOfByte (byte : UInt8) : Char :=
  Char.ofNat byte.toNat

/-- How a byte is written between the quotes of a text. -/
def printByte (byte : UInt8) : List Char :=
  match escapeLetter? byte with
  | some letter => ['\\', letter]
  | none => [charOfByte byte]

/-- The raw text between the quotes. -/
def printBytes (bytes : List UInt8) : List Char :=
  bytes.flatMap printByte

/-- Texts in one line, a blank between any two neighbours. -/
def spaced (texts : List String) : String :=
  " ".intercalate texts

/-- Texts in one line, a comma and a blank between any two neighbours. -/
def listed (texts : List String) : String :=
  ", ".intercalate texts

end Source

def Operand.print : Operand → String
  | .word name => name
  | .text bytes => String.ofList ('"' :: Source.printBytes bytes ++ ['"'])

def BinaryOp.print : BinaryOp → String
  | .add => "+"
  | .and => "&"
  | .or => "|"
  | .xor => "^"

def Comparison.print : Comparison → String
  | .equal => "=="
  | .notEqual => "!="
  | .less => "<"
  | .lessEqual => "<="
  | .greater => ">"
  | .greaterEqual => ">="

def Condition.print (condition : Condition) : String :=
  Source.spaced [condition.left.print, condition.comparison.print, condition.right.print]

/-- What stands behind the destination of an assignment. -/
def Update.print : Update → String
  | .set source => Source.spaced ["=", source.print]
  | .combine left op right => Source.spaced ["=", left.print, op.print, right.print]
  | .compound op source => Source.spaced [op.print ++ "=", source.print]

/-- The canonical line of a statement. -/
def Statement.print : Statement → String
  | .declare name none => Source.spaced ["var", name]
  | .declare name (some value) => Source.spaced ["var", name, "=", value.print]
  | .assign dest update => Source.spaced [dest, update.print]
  | .ifBlock condition => Source.spaced ["if", condition.print]
  | .ifGoto condition target => Source.spaced ["if", condition.print, ":", "goto", target]
  | .otherwise => "else"
  | .close => "end"
  | .loop condition => Source.spaced ["while", condition.print]
  | .function name => Source.spaced ["function", name ++ "()"]
  | .ret => "return"
  | .goto target => Source.spaced ["goto", target]
  | .label name => ":" ++ name
  | .halt => "HALT"
  | .exit code => Source.spaced ["exit", Decimal.numeral code.toNat]
  | .call name arguments => name ++ "(" ++ Source.listed (arguments.map Operand.print) ++ ")"

/-! ## Well-formed statements -/

/-- A nonempty run of ASCII letters, digits and underscores. -/
def IsWord (text : String) : Prop :=
  text ≠ "" ∧ ∀ c ∈ text.toList, c.isAlpha ∨ c.isDigit ∨ c = '_'

instance (text : String) : Decidable (IsWord text) :=
  @instDecidableAnd _ _ inferInstance
    (List.decidableBAll (fun c => c.isAlpha ∨ c.isDigit ∨ c = '_') text.toList)

/-- The words that start statements of their own, whatever follows them. -/
def reservedWords : List String :=
  ["exit", "goto", "var", "if", "while", "function"]

/-- An operand that is a word is one. -/
def Operand.WellFormed : Operand → Prop
  | .word name => IsWord name
  | .text _ => True

instance : DecidablePred Operand.WellFormed
  | .word name => inferInstanceAs (Decidable (IsWord name))
  | .text _ => inferInstanceAs (Decidable True)

def Condition.WellFormed (condition : Condition) : Prop :=
  condition.left.WellFormed ∧ condition.right.WellFormed

instance (condition : Condition) : Decidable condition.WellFormed :=
  inferInstanceAs (Decidable (_ ∧ _))

def Update.WellFormed : Update → Prop
  | .set source => source.WellFormed
  | .combine left _ right => left.WellFormed ∧ right.WellFormed
  | .compound _ source => source.WellFormed

instance : DecidablePred Update.WellFormed
  | .set source => inferInstanceAs (Decidable source.WellFormed)
  | .combine left _ right => inferInstanceAs (Decidable (left.WellFormed ∧ right.WellFormed))
  | .compound _ source => inferInstanceAs (Decidable source.WellFormed)

/-- Every word, name and label is a word, and no assignment and no call starts with a word that
starts a statement of another kind. -/
def Statement.WellFormed : Statement → Prop
  | .declare name value => IsWord name ∧ ∀ operand ∈ value, operand.WellFormed
  | .assign dest update => (IsWord dest ∧ dest ∉ reservedWords) ∧ update.WellFormed
  | .ifBlock condition => condition.WellFormed
  | .ifGoto condition target => condition.WellFormed ∧ IsWord target
  | .loop condition => condition.WellFormed
  | .function name => IsWord name
  | .goto target => IsWord target
  | .label name => IsWord name
  | .call name arguments =>
    (IsWord name ∧ name ∉ reservedWords) ∧ ∀ operand ∈ arguments, operand.WellFormed
  | .otherwise | .close | .ret | .halt | .exit _ => True

instance (operands : Option Operand) : Decidable (∀ operand ∈ operands, operand.WellFormed) :=
  match operands with
  | none => .isTrue (by simp)
  | some operand => decidable_of_iff operand.WellFormed (by simp)

instance : DecidablePred Statement.WellFormed
  | .declare name value =>
    inferInstanceAs (Decidable (IsWord name ∧ ∀ operand ∈ value, operand.WellFormed))
  | .assign dest update =>
    inferInstanceAs (Decidable ((IsWord dest ∧ dest ∉ reservedWords) ∧ update.WellFormed))
  | .ifBlock condition => inferInstanceAs (Decidable condition.WellFormed)
  | .ifGoto condition target => inferInstanceAs (Decidable (condition.WellFormed ∧ IsWord target))
  | .loop condition => inferInstanceAs (Decidable condition.WellFormed)
  | .function name => inferInstanceAs (Decidable (IsWord name))
  | .goto target => inferInstanceAs (Decidable (IsWord target))
  | .label name => inferInstanceAs (Decidable (IsWord name))
  | .call name arguments =>
    inferInstanceAs (Decidable ((IsWord name ∧ name ∉ reservedWords) ∧
      ∀ operand ∈ arguments, operand.WellFormed))
  | .otherwise => inferInstanceAs (Decidable True)
  | .close => inferInstanceAs (Decidable True)
  | .ret => inferInstanceAs (Decidable True)
  | .halt => inferInstanceAs (Decidable True)
  | .exit _ => inferInstanceAs (Decidable True)

/-! ## The tokens of a statement -/

namespace Source

def tokenOf : Operand → Token
  | .word text => .word text
  | .text bytes => .quoted (printBytes bytes)

def symbolOf : BinaryOp → Symbol
  | .add => .plus
  | .and => .and
  | .or => .or
  | .xor => .xor

def compoundSymbolOf : BinaryOp → Symbol
  | .add => .plusEqual
  | .and => .andEqual
  | .or => .orEqual
  | .xor => .xorEqual

def comparisonSymbolOf : Comparison → Symbol
  | .equal => .equalEqual
  | .notEqual => .notEqual
  | .less => .less
  | .lessEqual => .lessEqual
  | .greater => .greater
  | .greaterEqual => .greaterEqual

def conditionTokens (condition : Condition) : List Token :=
  [tokenOf condition.left, .symbol (comparisonSymbolOf condition.comparison),
    tokenOf condition.right]

def updateTokens : Update → List Token
  | .set source => [.symbol .equal, tokenOf source]
  | .combine left op right =>
    [.symbol .equal, tokenOf left, .symbol (symbolOf op), tokenOf right]
  | .compound op source => [.symbol (compoundSymbolOf op), tokenOf source]

def argumentTokens (arguments : List Operand) : List Token :=
  (arguments.map tokenOf).intersperse (.symbol .comma)

def tokensOf : Statement → List Token
  | .declare name none => [.word "var", .word name]
  | .declare name (some value) => [.word "var", .word name, .symbol .equal, tokenOf value]
  | .assign dest update => .word dest :: updateTokens update
  | .ifBlock condition => .word "if" :: conditionTokens condition
  | .ifGoto condition label =>
    .word "if" :: (conditionTokens condition ++ [.symbol .colon, .word "goto", .word label])
  | .otherwise => [.word "else"]
  | .close => [.word "end"]
  | .loop condition => .word "while" :: conditionTokens condition
  | .function name => [.word "function", .word name, .symbol .openParen, .symbol .closeParen]
  | .ret => [.word "return"]
  | .goto label => [.word "goto", .word label]
  | .label label => [.symbol .colon, .word label]
  | .halt => [.word "HALT"]
  | .exit code => [.word "exit", .word (Decimal.numeral code.toNat)]
  | .call name arguments =>
    .word name :: .symbol .openParen :: (argumentTokens arguments ++ [.symbol .closeParen])

/-! ## Characters -/

theorem isWordChar_iff {c : Char} : isWordChar c ↔ c.isAlpha ∨ c.isDigit ∨ c = '_' := by
  simp [isWordChar, Char.isAlphanum, or_assoc]

theorem toNat_of_isWordChar {c : Char} (h : isWordChar c) :
    48 ≤ c.toNat ∧ c.toNat ≤ 57 ∨ 65 ≤ c.toNat ∧ c.toNat ≤ 90 ∨
      97 ≤ c.toNat ∧ c.toNat ≤ 122 ∨ c.toNat = 95 := by
  have hupper : c.isUpper = decide (65 ≤ c.val ∧ c.val ≤ 90) := rfl
  have hlower : c.isLower = (decide (97 ≤ c.val) && decide (c.val ≤ 122)) := rfl
  have halpha : c.isAlpha = (c.isUpper || c.isLower) := rfl
  simp only [isWordChar, Char.isAlphanum, halpha, hupper, hlower, Char.isDigit, Bool.or_eq_true,
    Bool.and_eq_true, decide_eq_true_eq, beq_iff_eq, ge_iff_le, UInt32.le_iff_toNat_le] at h
  obtain ((⟨h₁, h₂⟩ | ⟨h₁, h₂⟩) | ⟨h₁, h₂⟩) | rfl := h
  · exact .inr (.inl ⟨h₁, h₂⟩)
  · exact .inr (.inr (.inl ⟨h₁, h₂⟩))
  · exact .inl ⟨h₁, h₂⟩
  · decide

theorem not_isBlank_of_isWordChar {c : Char} (h : isWordChar c) : Text.isBlank c = false := by
  have := toNat_of_isWordChar h
  simp only [Text.isBlank, Text.blankRanges, List.any_cons, List.any_nil, Bool.or_eq_false_iff,
    Bool.and_eq_false_iff, decide_eq_false_iff_not, and_true]
  omega

theorem isWordChar_of_mem {text : String} (h : IsWord text) {c : Char} (hc : c ∈ text.toList) :
    isWordChar c :=
  isWordChar_iff.2 (h.2 c hc)

theorem exists_cons_of_isWord {text : String} (h : IsWord text) :
    ∃ c rest, text.toList = c :: rest ∧ isWordChar c ∧ ∀ d ∈ rest, isWordChar d := by
  match hl : text.toList with
  | [] => exact absurd (String.toList_eq_nil_iff.1 hl) h.1
  | c :: rest =>
    refine ⟨c, rest, rfl, isWordChar_of_mem h (by simp [hl]), ?_⟩
    intro d hd
    exact isWordChar_of_mem h (by simp [hl, hd])

theorem toNat_charOfByte (byte : UInt8) : (charOfByte byte).toNat = byte.toNat := by
  have : byte.toNat.isValidChar := .inl (by have := byte.toNat_lt; omega)
  rw [charOfByte, Char.ofNat, dif_pos this]
  rfl

theorem byteOfChar_charOfByte (byte : UInt8) : byteOfChar (charOfByte byte) = .ok byte := by
  have := byte.toNat_lt
  simp [byteOfChar, toNat_charOfByte, this]

/-- A byte without an escape is written as a character that is neither a quote nor a backslash. -/
theorem charOfByte_ne {byte : UInt8} (h : escapeLetter? byte = none) :
    charOfByte byte ≠ '"' ∧ charOfByte byte ≠ '\\' := by
  have hq : byte ≠ 0x22 := by
    rintro rfl
    simp [escapeLetter?] at h
  have hb : byte ≠ 0x5C := by
    rintro rfl
    simp [escapeLetter?] at h
  constructor
  · intro hc
    exact hq (UInt8.toNat_inj.1 (by rw [← toNat_charOfByte, hc]; rfl))
  · intro hc
    exact hb (UInt8.toNat_inj.1 (by rw [← toNat_charOfByte, hc]; rfl))

/-- A letter behind a backslash stands for its byte again. -/
theorem escaped?_of_escapeLetter? {byte : UInt8} {letter : Char}
    (h : escapeLetter? byte = some letter) :
    ∃ c, escaped? letter = some c ∧ byteOfChar c = .ok byte := by
  unfold escapeLetter? at h
  split_ifs at h with h₁ h₂ h₃ h₄ h₅ <;> cases h <;> subst byte
  · exact ⟨'\\', rfl, rfl⟩
  · exact ⟨'\n', rfl, rfl⟩
  · exact ⟨'\t', rfl, rfl⟩
  · exact ⟨'"', rfl, rfl⟩
  · exact ⟨'\x27', rfl, rfl⟩

/-! ## Printed bytes -/

theorem readQuoted_printByte (byte : UInt8) (rest : List Char) :
    readQuoted (printByte byte ++ rest) =
      (readQuoted rest).map fun (raw, after) => (printByte byte ++ raw, after) := by
  cases h : escapeLetter? byte with
  | some letter => simp [printByte, h, readQuoted]
  | none =>
    obtain ⟨hq, hb⟩ := charOfByte_ne h
    simp [printByte, h, readQuoted, hb]

/-- The closing quote is found right behind the printed bytes. -/
theorem readQuoted_printBytes (bytes : List UInt8) (rest : List Char) :
    readQuoted (printBytes bytes ++ '"' :: rest) = some (printBytes bytes, rest) := by
  induction bytes with
  | nil => simp [printBytes, readQuoted]
  | cons byte bytes ih =>
    rw [printBytes, List.flatMap_cons, List.append_assoc, readQuoted_printByte, ← printBytes, ih]
    rfl

theorem unescape_printByte (byte : UInt8) (rest : List Char) :
    unescape (printByte byte ++ rest) = (unescape rest).map (byte :: ·) := by
  cases h : escapeLetter? byte with
  | some letter =>
    obtain ⟨c, hc, hbyte⟩ := escaped?_of_escapeLetter? h
    simp only [printByte, h, List.cons_append, List.nil_append, unescape, hc, hbyte]
    cases unescape rest <;> rfl
  | none =>
    obtain ⟨hq, hb⟩ := charOfByte_ne h
    rw [printByte, h]
    simp [unescape, byteOfChar_charOfByte, hb]
    cases unescape rest <;> rfl

/-- The printed bytes stand for the bytes. -/
theorem unescape_printBytes (bytes : List UInt8) : unescape (printBytes bytes) = .ok bytes := by
  induction bytes with
  | nil => rfl
  | cons byte bytes ih =>
    rw [printBytes, List.flatMap_cons, unescape_printByte, ← printBytes, ih]
    rfl

theorem cutComment_printByte (byte : UInt8) (rest : List Char) :
    cutComment .quoted (printByte byte ++ rest) = printByte byte ++ cutComment .quoted rest := by
  cases h : escapeLetter? byte with
  | some letter => simp [printByte, h, cutComment, Place.next]
  | none =>
    obtain ⟨hq, hb⟩ := charOfByte_ne h
    simp [printByte, h, cutComment, Place.next, hq, hb]

/-- No comment starts among printed bytes, whatever they are. -/
theorem cutComment_printBytes (bytes : List UInt8) (rest : List Char) :
    cutComment .quoted (printBytes bytes ++ rest) = printBytes bytes ++ cutComment .quoted rest := by
  induction bytes with
  | nil => rfl
  | cons byte bytes ih =>
    rw [printBytes, List.flatMap_cons, List.append_assoc, cutComment_printByte, ← printBytes, ih,
      List.append_assoc]

/-! ## Spelling tokens -/

/-- What follows a word or a symbol without running into it. -/
def Apart (rest : List Char) : Prop :=
  ∀ c ∈ rest.head?, isWordChar c = false ∧ c ≠ '='

/-- The text is read as the tokens wherever it stands outside a string literal. -/
structure Spells (text : List Char) (tokens : List Token) : Prop where
  first : ∃ c ∈ text.head?, Text.isBlank c = false
  last : ∃ c ∈ text.getLast?, Text.isBlank c = false
  /-- No comment starts in the text, nor at its end. -/
  kept : ∀ rest, cutComment .plain (text ++ rest) = text ++ cutComment .plain rest
  read : ∀ rest, Apart rest → tokenize (text ++ rest) = (tokenize rest).map (tokens ++ ·)

/-- Text of characters that start neither a comment nor a string literal is kept. -/
theorem cutComment_plain_append {text : List Char}
    (h : ∀ c ∈ text, c ≠ '"' ∧ c ≠ '-' ∧ c ≠ '/' ∧ c ≠ '#') (rest : List Char) :
    cutComment .plain (text ++ rest) = text ++ cutComment .plain rest := by
  induction text with
  | nil => rfl
  | cons c text ih =>
    obtain ⟨hq, hd, hs, hh⟩ := h c List.mem_cons_self
    have hstart : startsComment (c :: (text ++ rest)) = false := by
      unfold startsComment
      split <;> simp_all
    rw [List.cons_append, cutComment, if_neg (by simp [hstart])]
    simp only [Place.next, hq, if_false, ih fun d hd => h d (List.mem_cons_of_mem c hd)]
    rfl

/-- A word character starts neither a comment nor a string literal and is no equals sign. -/
theorem ne_of_isWordChar {c d : Char} (h : isWordChar c) (hd : isWordChar d = false) : c ≠ d := by
  rintro rfl
  simp [h] at hd

theorem kept_of_isWordChar {c : Char} (h : isWordChar c) :
    c ≠ '"' ∧ c ≠ '-' ∧ c ≠ '/' ∧ c ≠ '#' :=
  ⟨ne_of_isWordChar h rfl, ne_of_isWordChar h rfl, ne_of_isWordChar h rfl, ne_of_isWordChar h rfl⟩

theorem spells_word {text : String} (h : IsWord text) : Spells text.toList [.word text] := by
  obtain ⟨c, rest, htext, hc, hrest⟩ := exists_cons_of_isWord h
  have hall : ∀ d ∈ text.toList, isWordChar d := fun d hd => isWordChar_of_mem h hd
  refine ⟨⟨c, by simp [htext], not_isBlank_of_isWordChar hc⟩, ?_, ?_, ?_⟩
  · obtain ⟨d, hd⟩ : ∃ d, text.toList.getLast? = some d := by simp [htext, List.getLast?_cons]
    exact ⟨d, hd, not_isBlank_of_isWordChar (hall d (List.mem_of_getLast? hd))⟩
  · exact cutComment_plain_append fun d hd => kept_of_isWordChar (hall d hd)
  · intro after hafter
    have htake : after.takeWhile isWordChar = [] := by
      cases after with
      | nil => rfl
      | cons d _ => simp [(hafter d rfl).1]
    have hdrop : after.dropWhile isWordChar = after := by
      cases after with
      | nil => rfl
      | cons d _ => simp [(hafter d rfl).1]
    rw [htext, List.cons_append, tokenize, if_neg (by simp [not_isBlank_of_isWordChar hc]),
      if_pos hc, List.takeWhile_append_of_pos hrest, List.dropWhile_append_of_pos hrest, htake,
      hdrop, List.append_nil, ← htext, String.ofList_toList]
    rfl

/-- A symbol is read in full where no equals sign follows. -/
theorem read?_text (symbol : Symbol) {rest : List Char} (h : rest.head? ≠ some '=') :
    Symbol.read? (symbol.text.toList ++ rest) = some (symbol, rest) := by
  have : ∀ r, rest ≠ '=' :: r := by
    rintro r rfl
    exact h rfl
  cases symbol <;> simp_all [Symbol.text, Symbol.read?]

theorem tokenize_symbol (symbol : Symbol) {rest : List Char} (h : rest.head? ≠ some '=') :
    tokenize (symbol.text.toList ++ rest) = (tokenize rest).map (.symbol symbol :: ·) := by
  obtain ⟨c, more, htext, hblank, hword, hquote⟩ : ∃ c more, symbol.text.toList = c :: more ∧
      Text.isBlank c = false ∧ isWordChar c = false ∧ c ≠ '"' := by
    cases symbol <;> exact ⟨_, _, rfl, rfl, rfl, by decide⟩
  have hread := read?_text symbol h
  rw [htext, List.cons_append] at hread ⊢
  rw [tokenize, if_neg (by simp [hblank]), if_neg (by simp [hword]), if_neg hquote]
  split
  · simp_all
  · simp_all

theorem spells_symbol (symbol : Symbol) : Spells symbol.text.toList [.symbol symbol] where
  first := by cases symbol <;> exact ⟨_, rfl, rfl⟩
  last := by cases symbol <;> exact ⟨_, rfl, rfl⟩
  kept := cutComment_plain_append (by cases symbol <;> simp [Symbol.text])
  read rest h := tokenize_symbol symbol fun hrest => (h _ hrest).2 rfl

theorem spells_quoted (bytes : List UInt8) :
    Spells ('"' :: printBytes bytes ++ ['"']) [.quoted (printBytes bytes)] where
  first := ⟨'"', rfl, rfl⟩
  last := ⟨'"', by simp [List.getLast?_cons], rfl⟩
  kept rest := by
    have hquote : ∀ r, startsComment ('"' :: r) = false := fun _ => rfl
    simp [cutComment, hquote, Place.next, cutComment_printBytes]
  read rest _ := by
    have hread : readQuoted (printBytes bytes ++ (['"'] ++ rest)) = some (printBytes bytes, rest) :=
      readQuoted_printBytes bytes rest
    rw [List.append_assoc, List.cons_append, tokenize, if_neg (by decide), if_neg (by decide),
      if_pos rfl]
    split
    next hnone =>
      rw [hread] at hnone
      cases hnone
    next raw after hsome =>
      rw [hread] at hsome
      cases hsome
      rfl

/-! ## Joining spelled texts -/

namespace Spells

variable {text text' : List Char} {tokens tokens' : List Token}

theorem first_append (h : Spells text tokens) (after : List Char) :
    ∃ c ∈ (text ++ after).head?, Text.isBlank c = false := by
  obtain ⟨c, hc, hblank⟩ := h.first
  exact ⟨c, by rw [List.head?_append, hc]; rfl, hblank⟩

theorem last_append (h : Spells text tokens) (before : List Char) :
    ∃ c ∈ (before ++ text).getLast?, Text.isBlank c = false := by
  obtain ⟨c, hc, hblank⟩ := h.last
  exact ⟨c, by rw [List.getLast?_append, hc]; rfl, hblank⟩

theorem append (h : Spells text tokens) (h' : Spells text' tokens') (hapart : Apart text') :
    Spells (text ++ text') (tokens ++ tokens') where
  first := h.first_append _
  last := h'.last_append _
  kept rest := by rw [List.append_assoc, h.kept, h'.kept, List.append_assoc]
  read rest hrest := by
    have : Apart (text' ++ rest) := by
      obtain ⟨c, hc, -⟩ := h'.first
      intro d hd
      rw [List.head?_append, hc] at hd
      exact hapart d (hc.trans hd)
    rw [List.append_assoc, h.read _ this, h'.read _ hrest]
    cases tokenize rest <;> simp [Except.map]

/-- A blank between two texts keeps them apart. -/
theorem blank (h : Spells text tokens) (h' : Spells text' tokens') :
    Spells (text ++ ' ' :: text') (tokens ++ tokens') where
  first := h.first_append _
  last := by simpa using h'.last_append (text ++ [' '])
  kept rest := by
    rw [List.append_assoc, h.kept]
    have hblank : cutComment .plain ([' '] ++ (text' ++ rest)) =
        [' '] ++ cutComment .plain (text' ++ rest) := cutComment_plain_append (by simp) _
    simp_all [h'.kept]
  read rest hrest := by
    have hapart : Apart (' ' :: (text' ++ rest)) := by
      intro d hd
      cases hd
      decide
    rw [List.append_assoc, List.cons_append, h.read _ hapart, tokenize, if_pos (by decide),
      h'.read _ hrest]
    cases tokenize rest <;> simp [Except.map]

/-- A symbol right before a text that does not start with an equals sign. -/
theorem behind (symbol : Symbol) (h : Spells text tokens) (hhead : text.head? ≠ some '=') :
    Spells (symbol.text.toList ++ text) (.symbol symbol :: tokens) where
  first := (spells_symbol symbol).first_append _
  last := h.last_append _
  kept rest := by rw [List.append_assoc, (spells_symbol symbol).kept, h.kept, List.append_assoc]
  read rest hrest := by
    obtain ⟨c, hc, -⟩ := h.first
    have : (text ++ rest).head? ≠ some '=' := by
      rw [List.head?_append, hc]
      rwa [hc] at hhead
    rw [List.append_assoc, tokenize_symbol symbol this, h.read _ hrest]
    cases tokenize rest <;> rfl

end Spells

/-! ## Printed statements -/

/-- A line of spelled texts that stand apart by blanks. -/
theorem spells_spaced {text : String} {texts : List String} {tokens : List Token}
    {others : List (List Token)} (h : Spells text.toList tokens)
    (hothers : List.Forall₂ (fun text tokens => Spells text.toList tokens) texts others) :
    Spells (spaced (text :: texts)).toList (tokens ++ others.flatten) := by
  induction hothers generalizing text tokens with
  | nil => simpa [spaced] using h
  | cons h' _ ih =>
    have := h.blank (ih h')
    simpa [spaced, String.intercalate_cons_cons] using this

theorem spells_operand {operand : Operand} (h : operand.WellFormed) :
    Spells operand.print.toList [tokenOf operand] := by
  cases operand with
  | word name => exact spells_word h
  | text bytes =>
    rw [Operand.print, String.toList_ofList]
    exact spells_quoted bytes

/-- An operand starts with no equals sign. -/
theorem head?_print_ne {operand : Operand} (h : operand.WellFormed) :
    operand.print.toList.head? ≠ some '=' := by
  cases operand with
  | word name =>
    obtain ⟨c, rest, hname, hc, -⟩ := exists_cons_of_isWord h
    simpa [Operand.print, hname] using ne_of_isWordChar hc rfl
  | text bytes => simp [Operand.print]

theorem spells_operation (op : BinaryOp) : Spells op.print.toList [.symbol (symbolOf op)] := by
  have : op.print = (symbolOf op).text := by cases op <;> rfl
  exact this ▸ spells_symbol _

theorem spells_compound (op : BinaryOp) :
    Spells (op.print ++ "=").toList [.symbol (compoundSymbolOf op)] := by
  have : op.print ++ "=" = (compoundSymbolOf op).text := by cases op <;> rfl
  exact this ▸ spells_symbol _

theorem spells_comparison (comparison : Comparison) :
    Spells comparison.print.toList [.symbol (comparisonSymbolOf comparison)] := by
  have : comparison.print = (comparisonSymbolOf comparison).text := by cases comparison <;> rfl
  exact this ▸ spells_symbol _

theorem spells_condition {condition : Condition} (h : condition.WellFormed) :
    Spells condition.print.toList (conditionTokens condition) :=
  spells_spaced (spells_operand h.1)
    (.cons (spells_comparison _) (.cons (spells_operand h.2) .nil))

theorem spells_update {update : Update} (h : update.WellFormed) :
    Spells update.print.toList (updateTokens update) := by
  cases update with
  | set source => exact spells_spaced (spells_symbol .equal) (.cons (spells_operand h) .nil)
  | combine left op right =>
    exact spells_spaced (spells_symbol .equal)
      (.cons (spells_operand h.1) (.cons (spells_operation op) (.cons (spells_operand h.2) .nil)))
  | compound op source => exact spells_spaced (spells_compound op) (.cons (spells_operand h) .nil)

/-- The arguments of a call up to the closing parenthesis. -/
theorem spells_arguments {arguments : List Operand} (h : ∀ operand ∈ arguments, operand.WellFormed) :
    Spells (listed (arguments.map Operand.print) ++ ")").toList
        (argumentTokens arguments ++ [.symbol .closeParen]) ∧
      (listed (arguments.map Operand.print) ++ ")").toList.head? ≠ some '=' := by
  induction arguments with
  | nil => exact ⟨spells_symbol .closeParen, by simp [listed]⟩
  | cons operand arguments ih =>
    obtain ⟨hoperand, hothers⟩ := List.forall_mem_cons.1 h
    obtain ⟨hspells, -⟩ := ih hothers
    have hfirst := spells_operand hoperand
    obtain ⟨c, hc, -⟩ := hfirst.first
    have hne := head?_print_ne hoperand
    rw [Option.mem_def] at hc
    rw [hc] at hne
    cases arguments with
    | nil =>
      have := hfirst.append (spells_symbol .closeParen) (by intro c hc; cases hc; decide)
      refine ⟨by simpa [listed, argumentTokens, Symbol.text] using this, ?_⟩
      simpa [listed, hc] using hne
    | cons operand' arguments =>
      -- The comma ends the first argument, and the blank behind it separates it from the second.
      have hcomma := (spells_symbol .comma).blank hspells
      have := hfirst.append hcomma (by intro c hc; cases hc; decide)
      refine ⟨by simpa [listed, argumentTokens, String.intercalate_cons_cons, Symbol.text] using this,
        ?_⟩
      simpa [listed, String.intercalate_cons_cons, hc] using hne

theorem exitCode_numeral (code : UInt8) :
    IsWord (Decimal.numeral code.toNat) ∧ exitCode (Decimal.numeral code.toNat) = .ok code := by
  have hall : ∀ n < 256, IsWord (Decimal.numeral n) ∧
      exitCode (Decimal.numeral n) = .ok (UInt8.ofNat n) := by decide +kernel
  simpa using hall code.toNat code.toNat_lt

/-- The line of a well-formed statement spells its tokens. -/
theorem spells_print {statement : Statement} (h : statement.WellFormed) :
    Spells statement.print.toList (tokensOf statement) := by
  have word : ∀ text, IsWord text → Spells text.toList [.word text] := fun _ => spells_word
  cases statement with
  | declare name value =>
    cases value with
    | none => exact spells_spaced (word "var" (by decide)) (.cons (word _ h.1) .nil)
    | some value =>
      exact spells_spaced (word "var" (by decide)) (.cons (word _ h.1)
        (.cons (spells_symbol .equal) (.cons (spells_operand (h.2 value rfl)) .nil)))
  | assign dest update =>
    have := spells_spaced (word _ h.1.1) (.cons (spells_update h.2) .nil)
    simpa [Statement.print, tokensOf] using this
  | ifBlock condition =>
    exact spells_spaced (word "if" (by decide)) (.cons (spells_condition h) .nil)
  | ifGoto condition target =>
    exact spells_spaced (word "if" (by decide)) (.cons (spells_condition h.1)
      (.cons (spells_symbol .colon) (.cons (word "goto" (by decide)) (.cons (word _ h.2) .nil))))
  | otherwise => exact word "else" (by decide)
  | close => exact word "end" (by decide)
  | loop condition =>
    exact spells_spaced (word "while" (by decide)) (.cons (spells_condition h) .nil)
  | function name =>
    -- The parentheses follow the name without a blank.
    have hparens := Spells.behind .openParen (spells_symbol .closeParen) (by decide)
    have hname : Spells (name ++ "()").toList
        [.word name, .symbol .openParen, .symbol .closeParen] := by
      rw [String.toList_append]
      exact (word name h).append hparens (by intro c hc; cases hc; decide)
    exact spells_spaced (word "function" (by decide)) (.cons hname .nil)
  | ret => exact word "return" (by decide)
  | goto target => exact spells_spaced (word "goto" (by decide)) (.cons (word _ h) .nil)
  | label name =>
    -- The colon comes first, and the name does not start with an equals sign.
    obtain ⟨c, rest, hname, hc, -⟩ := exists_cons_of_isWord h
    have := Spells.behind .colon (word name h) (by simpa [hname] using ne_of_isWordChar hc rfl)
    rw [Statement.print, String.toList_append]
    exact this
  | halt => exact word "HALT" (by decide)
  | exit code =>
    exact spells_spaced (word "exit" (by decide)) (.cons (word _ (exitCode_numeral code).1) .nil)
  | call name arguments =>
    obtain ⟨harguments, hhead⟩ := spells_arguments h.2
    have hparen := Spells.behind .openParen harguments hhead
    have := (word name h.1.1).append hparen (by intro c hc; cases hc; decide)
    simpa [Statement.print, tokensOf, Symbol.text] using this

end Source

end ByteBasic
