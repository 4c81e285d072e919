import ByteBasic.Text.Hex
import ByteBasic.Text.Unprintable
import ByteBasic.Text.GraphemeExtend

/-!
# Quoted text

A source line is shown in a report between double quotes, so that what cannot be seen or would run
into its neighbours is spelled out: the quote and the backslash behind a backslash, tab, line feed,
carriage return and the null character by a letter, and every other character that has no printed
form or extends the one before it by its number.
-/

namespace ByteBasic.Text

/-- Whether `c` is written by its number: the ASCII controls, the characters without a printed form
and those that extend the one before them. -/
def isNumbered (c : Char) : Bool :=
  if c.toNat < 0x80 then c.toNat < 0x20 || c.toNat == 0x7F
  else isExtending c || isUnprintable c

/-- How one character is written between quotes. -/
def quoteChar (c : Char) : List Char :=
  if c = '"' then ['\\', '"']
  else if c = '\\' then ['\\', '\\']
  else if c = '\t' then ['\\', 't']
  else if c = '\n' then ['\\', 'n']
  else if c = '\r' then ['\\', 'r']
  else if c = '\x00' then ['\\', '0']
  else if isNumbered c then ['\\', 'u', '\x7b'] ++ Hex.digits .lower c.toNat ++ ['\x7d']
  else [c]

/-- The text between double quotes, with its characters written by `quoteChar`. -/
def quoted (text : String) : String :=
  String.ofList ('"' :: text.toList.flatMap quoteChar ++ ['"'])

end ByteBasic.Text
