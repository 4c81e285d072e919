import ByteBasic.Text.Decimal
import ByteBasic.Text.Quoted

/-!
# Reports

A report is a cause of failure with the source line it is blamed on, if that is known. Each area of
the compiler has its own type of causes; what they have in common is a kind and a wording, which is
the class `Cause`.

A report keeps the first line attached to it (`Report.orLine`), so the place closest to the fault
wins. A fault of the compiler itself is not blamed on any line.
-/

namespace ByteBasic

/-- What sort of fault a cause is. -/
inductive FaultKind
  /-- The line is not a statement. -/
  | parse
  /-- A word or literal does not denote what is needed. -/
  | value
  /-- No register can be had. -/
  | register
  /-- A jump has nowhere to go. -/
  | jump
  /-- The statement does not fit its surroundings. -/
  | compile
  /-- The compiler contradicts itself. -/
  | internal
  deriving DecidableEq

/-- The word for a kind of fault at the head of a report. -/
def FaultKind.label : FaultKind → String
  | .parse => "Parse"
  | .value => "Value"
  | .register => "Register"
  | .jump => "Jump"
  | .compile => "Compile"
  | .internal => "Internal"

/-- Causes of failure: each has a kind and a wording. -/
class Cause (φ : Type) where
  kind : φ → FaultKind
  message : φ → String

/-- A cause given by its kind and wording alone. -/
structure Remark where
  kind : FaultKind
  message : String
  deriving DecidableEq

instance : Cause Remark where
  kind remark := remark.kind
  message remark := remark.message

/-- A line of the source, counted from one, with its text. -/
structure SourceLine where
  number : Nat
  text : String
  deriving DecidableEq

/-- The line with a given number; a number outside the source has an empty text. -/
def sourceLine (lines : List String) (number : Nat) : SourceLine where
  number := number
  text := if number = 0 then "" else lines[number - 1]?.getD ""

/-- A cause of failure and the line it is blamed on. -/
structure Report (φ : Type) where
  cause : φ
  line : Option SourceLine
  deriving DecidableEq

namespace Report

variable {φ ψ : Type}

/-- The report of a cause that is not yet blamed on a line. -/
def ofCause (cause : φ) : Report φ :=
  ⟨cause, none⟩

/-- The report with its cause seen as one of another type. -/
def map (f : φ → ψ) (report : Report φ) : Report ψ :=
  ⟨f report.cause, report.line⟩

variable [Cause φ]

/-- The kind of the cause. -/
def kind (report : Report φ) : FaultKind :=
  Cause.kind report.cause

/-- The wording of the cause. -/
def message (report : Report φ) : String :=
  Cause.message report.cause

/-- Blames a report on a line, unless it already has one or is the compiler's own fault. -/
def orLine (report : Report φ) (line : SourceLine) : Report φ :=
  match report.kind, report.line with
  | .internal, _ => report
  | _, some _ => report
  | _, none => { report with line := some line }

/-- The report as one text: its kind, the number of its line, its wording and the line itself. -/
def display (report : Report φ) : String :=
  match report.kind, report.line with
  | .internal, _ => "Internal error: " ++ report.message
  | kind, none => kind.label ++ " error: " ++ report.message
  | kind, some line =>
    kind.label ++ " error at line " ++ Decimal.numeral line.number ++ ": " ++ report.message ++
      "; line: " ++ Text.quoted line.text

end Report

end ByteBasic
