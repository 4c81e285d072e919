import ByteBasic.Source.Token

/-!
# String literals

The raw text of a literal stands for bytes: a character stands for its number, which has to fit in a
byte, and a backslash with one of five characters after it for a character of its own.
-/

namespace ByteBasic.Source

/-- The character that a backslash and `c` stand for. -/
def escaped? (c : Char) : Option Char :=
  if c = '\\' then some '\\'
  else if c = 'n' then some '\n'
  else if c = 't' then some '\t'
  else if c = '\x27' then some '\x27'
  else if c = '"' then some '"'
  else none

/-- The byte with the number of a character. -/
def byteOfChar (c : Char) : Except SyntaxError UInt8 :=
  if c.toNat < 256 then .ok (UInt8.ofNat c.toNat) else .error (.wideCharacter c)

/-- The bytes that the raw text of a literal stands for. -/
def unescape : List Char → Except SyntaxError (List UInt8)
  | [] => .ok []
  | ['\\'] => .error .missingEscape
  | '\\' :: c :: rest =>
    match escaped? c with
    | none => .error (.unknownEscape c)
    | some c => do
      let byte ← byteOfChar c
      let bytes ← unescape rest
      return byte :: bytes
  | c :: rest => do
    let byte ← byteOfChar c
    let bytes ← unescape rest
    return byte :: bytes

end ByteBasic.Source
