/-!
# The lines of a text

A line ends at a line feed, together with one carriage return right before it. The last line need
not be ended, and nothing after a final line feed is not a line. A carriage return anywhere else
belongs to its line.
-/

namespace ByteBasic.Text

/-- The lines of a text, without their ends. -/
def splitLines : List Char → List (List Char)
  | [] => []
  | '\n' :: rest => [] :: splitLines rest
  | '\r' :: '\n' :: rest => [] :: splitLines rest
  | c :: rest =>
    match splitLines rest with
    | [] => [[c]]
    | line :: lines => (c :: line) :: lines

/-- The lines of a string, without their ends. -/
def lines (text : String) : List String :=
  (splitLines text.toList).map String.ofList

end ByteBasic.Text
