/-!
# Notes

What the machine and the compiler remark on while they work. A note is not part of any result: it
says what happened, and how much it matters.
-/

namespace ByteBasic

/-- How much a note matters. -/
inductive Level
  | trace
  | debug
  | warn
  deriving DecidableEq

/-- The word for a level at the head of a note. -/
def Level.label : Level → String
  | .trace => "TRACE"
  | .debug => "DEBUG"
  | .warn => "WARN"

/-- A remark with its level. -/
structure Note where
  level : Level
  message : String
  deriving DecidableEq

/-- The note as one text: its level, a space and its message. -/
def Note.text (note : Note) : String :=
  note.level.label ++ " " ++ note.message

end ByteBasic
