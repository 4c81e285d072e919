import ByteBasic.Proofs.Compiler.Sequencing

/-!
# No stream touches the variables of another

What a line leaves in registers is written back later, by whatever line needs the register or turns
control, and into the stream that is open by then. That this never puts a function's variable into
another stream rests on two facts: only variables that can be seen are ever held
(`Session.Reached.confined`), and what is put out touches memory for such variables or at addresses
that its line names (`Emission.Isolated`).

**Theorem (`variables_stay_in_scope`).** Whatever the source is, and also if it is refused: every
load and store that is put out for a variable uses the slot of a variable that is global or local to
the stream it is put out in, and every other one is at an address that its line names.

Slots are told apart at the end of the source, when all variables are known. Therefore a variable
keeps its slot from its declaration on (`Session.PutOut`), and no two have the same one
(`Session.slotted_end`).
-/

namespace ByteBasic

namespace Session

variable {lines : List String} {count : Nat} {session before after : Session} {text : String}

/-! ## What is put out -/

/-- A line put this out in a session that was reached, and the variables of then are still there. -/
def PutOut (lines : List String) (storage : Storage) (emission : Emission) : Prop :=
  ∃ index before text, Reached lines index before ∧ lines[index]? = some text ∧
    .code emission ∈ ((Build.line text (index + 1)).run before.state).output ∧
    emission.state.storage.Extends storage

theorem PutOut.mono {emission : Emission} {storage later : Storage}
    (h : PutOut lines storage emission)
    (hextends : storage.Extends later) : PutOut lines later emission := by
  obtain ⟨index, before, text, hreached, htext, hmem, hstorage⟩ := h
  exact ⟨index, before, text, hreached, htext, hmem, hstorage.trans hextends⟩

theorem Reached.putOut_line (h : Reached lines count session) (htext : lines[count]? = some text)
    (hold : ∀ emission ∈ session.emissions, PutOut lines session.state.storage emission) :
    ∀ emission ∈ (session.line text (count + 1)).2.emissions,
      PutOut lines (session.line text (count + 1)).2.state.storage emission := by
  intro emission hmem
  rcases mem_emissions_append.1 hmem with hmem | hmem
  · exact (hold emission hmem).mono (h.extends_line text)
  · refine ⟨count, session, text, h, htext, hmem, ?_⟩
    rcases h.conducts text with ⟨error, hrun, -⟩ | ⟨said, -, hconducts⟩
    · rw [hrun] at hmem
      cases hmem
    · exact (hconducts.emissions emission hmem).2.2

theorem Reached.extends_endStatement (h : Reached lines count before)
    (hline : before.line text (count + 1) = (.ok (), after)) :
    after.state.storage.Extends after.endStatement.state.storage := by
  have hsame := (Storage.keeps_endStatement (h.housed_line hline).coherent).same
  obtain ⟨storage, hstorage, hend⟩ := after.endStatement_eq
  rw [← hstorage] at hsame
  rw [hend]
  exact .of_same hsame

theorem Reached.putOut (h : Reached lines count session) :
    ∀ emission ∈ session.emissions, PutOut lines session.state.storage emission := by
  induction h with
  | new => exact fun _ hmem => by cases hmem
  | line hbefore htext hline ih =>
    intro emission hmem
    have hput := hbefore.putOut_line htext ih emission
    rw [emissions, events_endStatement] at hmem
    rw [hline] at hput
    exact (hput hmem).mono (hbefore.extends_endStatement hline)

/-- Whatever a source makes the compiler put out, a line put it out in a session that was
reached. -/
theorem exists_line (lines : List String) :
    ∀ emission ∈ (linesFrom lines lines 1 .new).2.emissions,
      PutOut lines (linesFrom lines lines 1 .new).2.state.storage emission := by
  have hcases := take_cases lines lines.length (Nat.le_refl _)
  rw [List.take_length] at hcases
  rcases hcases with ⟨session, hall, hreached⟩ | hrefused
  · rw [hall]
    exact hreached.putOut
  · obtain ⟨index, before, text, error, after, -, hreached, htext, hline, hall⟩ := hrefused
    have hput := hreached.putOut_line htext hreached.putOut
    rw [hline] at hput
    rw [hall]
    exact hput

/-- At the end of a source, compiled or refused, every variable has a slot of its own. -/
theorem slotted_end (lines : List String) :
    (linesFrom lines lines 1 .new).2.state.storage.Slotted := by
  have hcases := take_cases lines lines.length (Nat.le_refl _)
  rw [List.take_length] at hcases
  rcases hcases with ⟨session, hall, hreached⟩ | hrefused
  · rw [hall]
    exact hreached.housed.orderly.slotted
  · obtain ⟨index, before, text, error, after, -, hreached, -, hline, hall⟩ := hrefused
    have hextends := hreached.extends_line text
    rw [hline] at hextends
    rw [hall]
    exact hextends.slots hreached.housed.orderly.slotted

end Session

/-- **Variables stay in scope.** Whatever a source is, and whether it is compiled or refused: a load
or store that is put out for a variable is at the slot of a variable, and only a global one or one
of the stream that it is put out in can have that slot. Any other load or store was put out by a
line that names its address. -/
theorem variables_stay_in_scope (source : String) :
    let lines := Text.lines source
    let session := (Session.linesFrom lines lines 1 .new).2
    let storage := session.state.storage
    ∀ emission ∈ session.emissions, ∀ instruction address,
      emission.item = .instruction instruction → instruction.cell? = some address →
      (emission.origin = .variable →
        (∃ id < storage.vars.length, (storage.get id).address = address) ∧
        ∀ id < storage.vars.length, (storage.get id).address = address →
          (storage.get id).scope = .global ∨ (storage.get id).scope = emission.stream) ∧
      (emission.origin = .statement →
        ∃ index text before statement, lines[index]? = some text ∧
          Session.linesFrom lines (lines.take index) 1 .new = (.ok (), before) ∧
          .code emission ∈ ((Build.line text (index + 1)).run before.state).output ∧
          Statement.parse text.toList = .ok (some statement) ∧
          emission.state.Names statement.operands address) := by
  intro lines session storage emission hmem instruction address hitem hcell
  obtain ⟨index, before, text, hreached, htext, hput, hextends⟩ :=
    Session.exists_line lines emission hmem
  rcases hreached.conducts text with ⟨error, hrun, -⟩ | ⟨said, hparse, hconducts⟩
  · rw [hrun] at hput
    cases hput
  obtain ⟨hisolated, -, -⟩ := hconducts.emissions emission hput
  have hcause := hisolated instruction hitem address hcell
  constructor
  · intro horigin
    rw [horigin] at hcause
    obtain ⟨id, ⟨hid, hscope⟩, haddress⟩ := hcause
    obtain ⟨hlater, hidentity⟩ := hextends.identity_eq hid
    -- The variable keeps its slot to the end, and no other one gets it.
    have hslot : (storage.get id).address = address := by
      rw [← haddress]
      exact congrArg (fun identity => identity.2.2) hidentity
    refine ⟨⟨id, hlater, hslot⟩, fun other hother hsame => ?_⟩
    obtain rfl : other = id :=
      (Session.slotted_end lines).eq_of_address hother hlater (hsame.trans hslot.symm)
    rw [show (storage.get other).scope = (emission.state.storage.get other).scope from
      congrArg (fun identity => identity.2.1) hidentity]
    exact hscope
  · intro horigin
    rw [horigin] at hcause
    cases said with
    | none =>
      obtain ⟨operand, hoperand, -⟩ := hcause
      cases hoperand
    | some statement =>
      exact ⟨index, text, before, statement, htext, hreached.linesFrom_eq.2, hput, hparse, hcause⟩

/-- A function's variable is written back when the function ends, at a slot that no other function
has. -/
theorem variables_stay_in_scope_functions :
    let source := "var g\nfunction f()\nvar x\nx = g\nend\nfunction h()\nvar y\ny = 2\nend"
    let lines := Text.lines source
    let session := (Session.linesFrom lines lines 1 .new).2
    let storage := session.state.storage
    (∃ emission ∈ session.emissions, emission.stream = .function 1 ∧
      emission.item = .instruction (.store 1 253) ∧ emission.origin = .variable) ∧
    ∀ id < storage.vars.length, (storage.get id).address = 253 →
      (storage.get id).scope = .global ∨ (storage.get id).scope = .function 1 := by
  intro source lines session storage
  have hstore : ∃ emission ∈ session.emissions, emission.stream = .function 1 ∧
      emission.item = .instruction (.store 1 253) ∧ emission.origin = .variable := by
    decide +kernel
  refine ⟨hstore, ?_⟩
  obtain ⟨emission, hmem, hstream, hitem, horigin⟩ := hstore
  rw [← hstream]
  exact ((variables_stay_in_scope source emission hmem _ 253 hitem rfl).1 horigin).2

end ByteBasic
