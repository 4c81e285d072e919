import ByteBasic.Compiler.Line
import ByteBasic.Machine.Processor
import ByteBasic.Text.Lines

/-!
# Compiling a program

A session takes the lines of a source one after the other and keeps what they put out. `finish` lays
the code out, the global stream first and then the functions in the order of their definition, and
checks that it fits into memory below the slots of the variables.

`compile` is a session over all lines of a source. It stops at the first line that is refused.
-/

namespace ByteBasic

/-- A compilation under way. -/
structure Session where
  state : BuildState
  /-- All that was put out so far, in order. -/
  events : List BuildEvent
  deriving DecidableEq

namespace Session

def new : Session :=
  ⟨.initial, []⟩

/-- Compiles one line. What a refused line has put out or changed before its fault stays. -/
def line (session : Session) (text : String) (number : Nat) : Except CompileError Unit × Session :=
  let outcome := (Build.line text number).run session.state
  (outcome.result, ⟨outcome.state, session.events ++ outcome.output⟩)

/-- Gives up what the last statement needed. -/
def endStatement (session : Session) : Session :=
  { session with
    state := { session.state with
      storage := (Storage.endStatement.run session.state.storage).state } }

def emissions (session : Session) : List Emission :=
  session.events.filterMap BuildEvent.emission?

def notes (session : Session) : List Note :=
  session.events.filterMap BuildEvent.note?

def streamItems (session : Session) (stream : Scope) : List Item :=
  (session.emissions.filter fun emission => emission.stream == stream).map Emission.item

/-- All items in the order in which they are laid out. -/
def items (session : Session) : List Item :=
  session.streamItems .global ++
    (List.range session.state.functions.length).flatMap fun id =>
      session.streamItems (.function id)

/-- Blames a cause on a line of the source. -/
def blame (lines : List String) (number : Nat) (error : CompileError) : Report CompileError :=
  (Report.ofCause error).orLine (sourceLine lines number)

/-- The bytes of the items, with every jump resolved. -/
def assemble (session : Session) (lines : List String) :
    Except (Report CompileError) (List UInt8) :=
  match (Layout.lowerAll lines session.items).run (Layout.empty session.state.labels) with
  | .error report _ => .error (report.map .layout)
  | .ok () layout =>
    match patchAll layout.labels lines layout.fixups layout.bytes with
    | (.error report, _) => .error (report.map .layout)
    | (.ok (), bytes) => .ok bytes

/-- Checks that the code fits into memory, and below the slots of the variables. -/
def checkSize (session : Session) (lines : List String) (size : Nat) :
    Except (Report CompileError) Unit :=
  if size > memorySize then .error (blame lines lines.length (.programTooLarge size))
  else match session.state.storage.lowestAddress? with
    | none => .ok ()
    | some lowest =>
      if size > lowest.toNat then
        let line := session.state.lastDeclaration.getD lines.length
        .error (blame lines line (.overlap size lowest))
      else .ok ()

/-- The image of the program, if all blocks are closed and the code can be laid out. -/
def finish (session : Session) (lines : List String) : Except (Report CompileError) Image :=
  match session.state.blocks with
  | block :: _ => .error (blame lines block.line (.unterminated block.keyword))
  | [] => do
    let bytes ← session.assemble lines
    session.checkSize lines bytes.length
    return ⟨bytes⟩

def finishNote (image : Image) : Note :=
  ⟨.debug, "compiled " ++ Decimal.numeral image.size ++ " bytes\n" ++ image.listing⟩

/-- Compiles lines in turn, the first of which has the given number, up to the first that is
refused. -/
def linesFrom (all : List String) :
    List String → Nat → Session → Except (Report CompileError) Unit × Session
  | [], _, session => (.ok (), session)
  | text :: rest, number, session =>
    match session.line text number with
    | (.error error, session) => (.error (blame all number error), session)
    | (.ok (), session) => linesFrom all rest (number + 1) session.endStatement

end Session

/-- The result of compiling a source, with the notes made on the way. -/
structure Compilation where
  result : Except (Report CompileError) Image
  notes : List Note

def compileLines (lines : List String) : Compilation :=
  match Session.linesFrom lines lines 1 Session.new with
  | (.error report, session) => ⟨.error report, session.notes⟩
  | (.ok (), session) =>
    match session.finish lines with
    | .error report => ⟨.error report, session.notes⟩
    | .ok image => ⟨.ok image, session.notes ++ [Session.finishNote image]⟩

/-- The image of a source, or the report on the first fault found in it. -/
def compile (source : String) : Except (Report CompileError) Image :=
  (compileLines (Text.lines source)).result

end ByteBasic
