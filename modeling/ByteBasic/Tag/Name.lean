import ByteBasic.Text.Blank
import ByteBasic.Text.Letter
import ByteBasic.Text.NameMark

/-!
# Names

A name is a run of letters, digits, underscores and marks that starts with a letter or an
underscore. Some names are reserved: they are keywords and cannot be given to anything.
-/

namespace ByteBasic.Tag

/-- Whether `c` only separates tokens. The marks U+200E and U+200F, which tell the direction of
writing, count as blanks. -/
def isSpacing (c : Char) : Bool :=
  Text.isBlank c || c == '\u200E' || c == '\u200F'

/-- Whether `c` can start a name. -/
def startsName (c : Char) : Bool :=
  if c.toNat < 0x80 then c.isAlpha || c == '_' else Text.isLetter c

/-- Whether `c` can be part of a name. -/
def continuesName (c : Char) : Bool :=
  startsName c || if c.toNat < 0x80 then c.isDigit else Text.isNameMark c

/-- The words that are no names. -/
def reservedWords : List String :=
  ["_", "abstract", "as", "async", "await", "become", "box", "break", "const", "continue", "crate",
    "do", "dyn", "else", "enum", "extern", "false", "final", "fn", "for", "if", "impl", "in", "let",
    "loop", "macro", "match", "mod", "move", "mut", "override", "priv", "pub", "ref", "return",
    "Self", "self", "static", "struct", "super", "trait", "true", "try", "type", "typeof", "unsafe",
    "unsized", "use", "virtual", "where", "while", "yield"]

/-- The reserved words that lead to a type or a trait all the same. -/
def pathWords : List String :=
  ["crate", "Self", "self", "super"]

/-- Whether a word can refer to a type. -/
def isTypeWord (word : String) : Bool :=
  word ∈ pathWords || word ∉ reservedWords

/-- Whether a word can refer to a trait; one of them may be called `try`. -/
def isTraitWord (word : String) : Bool :=
  word == "try" || isTypeWord word

end ByteBasic.Tag
