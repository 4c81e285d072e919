import ByteBasic.Text.Blank

/-!
# Comments

A comment starts at `--`, `//` or `##` outside a string literal and runs to the end of the line. A
string literal that is never closed hides every marker after it.
-/

namespace ByteBasic.Source

/-- Where in a line a character stands. -/
inductive Place
  /-- Outside any string literal. -/
  | plain
  /-- Inside a string literal. -/
  | quoted
  /-- Inside a string literal, right after a backslash. -/
  | escaped
  deriving DecidableEq

/-- The place of the character after `c`, when `c` is at the given place. -/
def Place.next : Place → Char → Place
  | .plain, c => if c = '"' then .quoted else .plain
  | .quoted, c => if c = '\\' then .escaped else if c = '"' then .plain else .quoted
  | .escaped, _ => .quoted

/-- Whether the text starts with a comment marker. -/
def startsComment : List Char → Bool
  | '-' :: '-' :: _ => true
  | '/' :: '/' :: _ => true
  | '#' :: '#' :: _ => true
  | _ => false

/-- The text up to the first comment marker outside a string literal. -/
def cutComment (place : Place) : List Char → List Char
  | [] => []
  | c :: rest =>
    if place = .plain ∧ startsComment (c :: rest) then []
    else c :: cutComment (place.next c) rest

/-- The line without its comment and without the blanks at its ends. -/
def stripComment (line : List Char) : List Char :=
  Text.trim (cutComment .plain line)

end ByteBasic.Source
