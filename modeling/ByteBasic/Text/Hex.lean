/-!
# Hexadecimal numerals

Offsets, words, registers and literals are all shown in base sixteen, in either letter case and
padded on the left with zeros to at least a given width.

* `Hex.digits`: the digits of a number, most significant first, with no leading zero.
* `Hex.numeral`: those digits padded to a width; a longer numeral is not cut.
* `Hex.readByte?`: the byte that one or two digits denote, in either case.
-/

namespace ByteBasic.Hex

/-- The letter case of the digits ten to fifteen. -/
inductive Case
  | upper
  | lower
  deriving DecidableEq

/-- The character of the digit `d < 16`. -/
def digit (case : Case) (d : Nat) : Char :=
  if d < 10 then Char.ofNat (0x30 + d)
  else match case with
    | .upper => Char.ofNat (0x41 + (d - 10))
    | .lower => Char.ofNat (0x61 + (d - 10))

/-- The digits of `n`, most significant first; zero has one digit. -/
def digits (case : Case) (n : Nat) : List Char :=
  if n < 16 then [digit case n] else digits case (n / 16) ++ [digit case (n % 16)]
termination_by n
decreasing_by omega

/-- The numeral of `n` in upper case, padded with zeros to at least `width` digits. -/
def numeral (width n : Nat) : String :=
  String.ofList ((digits .upper n).leftpad width '0')

/-- The numeral of `n` in lower case, padded with zeros to at least `width` digits. -/
def numeralLower (width n : Nat) : String :=
  String.ofList ((digits .lower n).leftpad width '0')

/-- The value of a hexadecimal digit of either case. -/
def digitValue? (c : Char) : Option Nat :=
  if '0' ≤ c ∧ c ≤ '9' then some (c.toNat - 0x30)
  else if 'A' ≤ c ∧ c ≤ 'F' then some (c.toNat - 0x41 + 10)
  else if 'a' ≤ c ∧ c ≤ 'f' then some (c.toNat - 0x61 + 10)
  else none

/-- The byte denoted by one or two digits; any other text denotes none. -/
def readByte? : List Char → Option UInt8
  | [low] => (digitValue? low).map UInt8.ofNat
  | [high, low] => do
    let high ← digitValue? high
    let low ← digitValue? low
    return UInt8.ofNat (16 * high + low)
  | _ => none

theorem digitValue?_digit (case : Case) (d : Fin 16) :
    digitValue? (digit case d) = some d.val := by
  revert d
  cases case <;> decide

end ByteBasic.Hex
