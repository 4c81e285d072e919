import ByteBasic.Proofs.Compiler.Locality
import ByteBasic.Proofs.Compiler.Sessions
import ByteBasic.Proofs.Source.Meaning

/-!
# A compilation line by line

A source that is compiled to its end has a meaning as a program, and a `Trace`: the session before
each line, with what the line does to it. The trace is what the rest of the argument looks at; it has
the specification of each statement for every line, whether control ever comes there or not.
-/

namespace ByteBasic

open Source (Program)

/-- What compiling a line that says something, or nothing, does to the state and puts out. -/
structure Build.Says (number : Nat) (said : Option Statement) (state after : BuildState)
    (items : List (Scope × Item)) : Prop where
  ranged : after.Ranged number
  blank : said = none → after = state ∧ items = []
  compiled : ∀ statement, said = some statement → Compiled number state after items statement
  scope : ∀ statement, said = some statement → (∀ name, statement ≠ .function name) →
    statement ≠ .close → ∀ entry ∈ items, entry.1 = state.current

/-- What reading a line does to a session: it is compiled, and what its statement needed is given
up. -/
structure Session.Reads (number : Nat) (said : Option Statement) (before after : Session) :
    Prop where
  inRange : after.InRange number
  tells : ∃ state items, Build.Says number said before.state state items ∧
    streamed after.events = streamed before.events ++ items ∧
    after.state = { state with storage := (Storage.endStatement.run state.storage).state }

namespace Session

variable {session last : Session} {count : Nat}

theorem InRange.reads (h : session.InRange count) {text : String} {after : Session}
    (hline : session.line text (count + 1) = (.ok (), after)) :
    ∃ said, Statement.parse text.toList = .ok said ∧
      session.Reads (count + 1) said after.endStatement := by
  have hinRange := h.line hline
  obtain ⟨-, hresult⟩ := Build.yields_line (h.state.mono (Nat.le_succ count)) h.unpinned
    (Nat.succ_pos count) text
  have hok : ((Build.line text (count + 1)).run session.state).result = .ok () :=
    congrArg Prod.fst hline
  have hafter : (session.line text (count + 1)).2 = after := congrArg Prod.snd hline
  rw [hok] at hresult
  obtain ⟨hranged, said, hparse, hsaid⟩ := hresult
  obtain ⟨storage, hstorage, hend⟩ := after.endStatement_eq
  refine ⟨said, hparse, hinRange, ((Build.line text (count + 1)).run session.state).state,
    streamed ((Build.line text (count + 1)).run session.state).output, ⟨hranged, ?_, ?_, ?_⟩, ?_, ?_⟩
  · rintro rfl
    exact hsaid
  · rintro statement rfl
    exact hsaid
  · rintro statement rfl hfunction hclose
    have hrun : Build.line text (count + 1) = Build.statement statement (count + 1) := by
      simp only [Build.line, hparse]
    rw [hrun]
    exact (Build.local_statement hfunction hclose (count + 1) session.state).2
  · rw [hend, ← hafter]
    exact streamed_append ..
  · rw [hend, hstorage, ← hafter]
    rfl

/-- Lines that are not refused are read one after the other. -/
theorem InRange.readsFrom {all rest : List String} (h : session.InRange count)
    (hlines : Session.linesFrom all rest (count + 1) session = (.ok (), last)) :
    ∃ program, Source.program rest = .ok program ∧ program.length = rest.length ∧
      ∃ sessions : Nat → Session, sessions 0 = session ∧ sessions rest.length = last ∧
        ∀ line said, program[line]? = some said →
          (sessions line).Reads (count + line + 1) said (sessions (line + 1)) := by
  induction rest generalizing session count with
  | nil =>
    cases hlines
    exact ⟨[], rfl, rfl, fun _ => last, rfl, rfl, fun line said hsaid => (by cases hsaid)⟩
  | cons text rest ih =>
    rcases hline : session.line text (count + 1) with ⟨error | _, after⟩
    · rw [linesFrom_cons_error hline] at hlines
      cases hlines
    · rw [linesFrom_cons_ok hline] at hlines
      obtain ⟨said, hparse, hreads⟩ := h.reads hline
      obtain ⟨program, hprogram, hlength, sessions, hfirst, hlast, hall⟩ := ih hreads.inRange hlines
      -- The sessions of the rest, with this one in front.
      refine ⟨said :: program, ?_, congrArg (· + 1) hlength,
        fun line => line.casesOn session sessions, rfl, hlast, fun line later hlater => ?_⟩
      · unfold Source.program at hprogram ⊢
        rw [List.mapM_cons, hparse, hprogram]
        rfl
      · cases line with
        | zero =>
          cases hlater
          simp only [hfirst, Nat.add_zero]
          exact hreads
        | succ line =>
          have hnumber : count + (line + 1) + 1 = count + 1 + line + 1 := by omega
          rw [hnumber]
          exact hall line later hlater

end Session

/-- A compilation line by line: the session before each line of a program. -/
structure Trace (program : Program) where
  session : Nat → Session
  first : session 0 = .new
  reads : ∀ {line said}, program[line]? = some said →
    (session line).Reads (line + 1) said (session (line + 1))

theorem exists_trace {lines : List String} {last : Session}
    (h : Session.linesFrom lines lines 1 .new = (.ok (), last)) :
    ∃ program, Source.program lines = .ok program ∧
      ∃ trace : Trace program, trace.session program.length = last := by
  obtain ⟨program, hprogram, hlength, sessions, hfirst, hlast, hreads⟩ :=
    Session.inRange_new.readsFrom h
  refine ⟨program, hprogram, ⟨sessions, hfirst, fun {line said} hsaid => ?_⟩, ?_⟩
  · have hline := hreads line said hsaid
    rwa [Nat.zero_add] at hline
  · rw [hlength]
    exact hlast

namespace Trace

variable {program : Program} (trace : Trace program) {line : Nat}

def state (line : Nat) : BuildState :=
  (trace.session line).state

/-- What the lines above a line put out. -/
def done (line : Nat) : List (Scope × Item) :=
  streamed (trace.session line).events

theorem state_zero : trace.state 0 = .initial := by
  rw [state, trace.first]
  rfl

theorem done_zero : trace.done 0 = [] := by
  rw [done, trace.first]
  rfl

theorem inRange (h : line ≤ program.length) : (trace.session line).InRange line := by
  cases line with
  | zero =>
    rw [trace.first]
    exact Session.inRange_new
  | succ line => exact (trace.reads (List.getElem?_eq_getElem h)).inRange

theorem ranged (h : line ≤ program.length) : (trace.state line).Ranged line :=
  (trace.inRange h).state

theorem tidy (h : line ≤ program.length) : (trace.state line).storage.Tidy :=
  (trace.ranged h).tidy

theorem tells {said : Option Statement} (h : program[line]? = some said) :
    ∃ after items, Build.Says (line + 1) said (trace.state line) after items ∧
      trace.done (line + 1) = trace.done line ++ items ∧
      trace.state (line + 1) =
        { after with storage := (Storage.endStatement.run after.storage).state } :=
  (trace.reads h).tells

/-- What was put out stays. -/
theorem done_prefix {later : Nat} (hle : line ≤ later) (hlater : later ≤ program.length) :
    trace.done line <+: trace.done later := by
  induction hle with
  | refl => exact List.prefix_rfl
  | @step k _ ih =>
    obtain ⟨_, items, -, hdone, -⟩ := trace.tells (List.getElem?_eq_getElem hlater)
    rw [Nat.succ_eq_add_one, hdone]
    exact (ih (Nat.le_of_lt hlater)).trans (List.prefix_append ..)

end Trace

end ByteBasic
