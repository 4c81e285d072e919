/-!
# Decimal numerals

A numeral is a run of decimal digits of any length; leading zeros are allowed and do not change its
value. A program only ever needs numerals that fit in a byte.
-/

namespace ByteBasic.Decimal

/-- Whether every character is a decimal digit. -/
def isNumeral (text : List Char) : Bool :=
  text.all Char.isDigit

/-- The number that a run of decimal digits denotes. -/
def value (digits : List Char) : Nat :=
  digits.foldl (fun n d => 10 * n + (d.toNat - '0'.toNat)) 0

/-- The byte that a nonempty numeral denotes, if its value fits in one. -/
def readByte? (digits : List Char) : Option UInt8 :=
  if digits ≠ [] ∧ value digits ≤ 255 then some (UInt8.ofNat (value digits)) else none

def numeral (n : Nat) : String :=
  Nat.repr n

end ByteBasic.Decimal
