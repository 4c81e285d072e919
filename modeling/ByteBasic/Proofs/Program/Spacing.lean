import ByteBasic.Proofs.Compiler.Renumbering
import ByteBasic.Proofs.Compiler.Sessions

/-!
# Blank lines

Blank lines put into a source shift the numbers of the lines after them, and each of them ends a
statement once more. Neither matters. Line numbers are only carried along (`Build.carries_line`), so two
sessions that differ in them alone go on doing so, and their code is laid out to the same bytes. And
between two statements nothing is left that the end of a statement could give up
(`Storage.endStatement_of_unpinned`).

`Session.plain` is a session with all its line numbers erased. From sessions that are the same but for
those, lines with and without blank ones lead to such sessions again (`linesFrom_spaced`).

**Theorem (`blank_lines_do_not_matter`).** A source and the source with blank lines put in are compiled
to the same image, or refused with the same kind and message.
-/

namespace ByteBasic

/-! ## Sources and verdicts -/

/-- The second source is the first with blank lines put in anywhere. -/
inductive Spaced : List String → List String → Prop
  | nil : Spaced [] []
  | keep {lines spaced : List String} (text : String) (rest : Spaced lines spaced) :
      Spaced (text :: lines) (text :: spaced)
  | blank {lines spaced : List String} (text : String)
      (blank : Statement.parse text.toList = .ok none) (rest : Spaced lines spaced) :
      Spaced lines (text :: spaced)

/-- Both results are the same image, or reports of the same kind and message. -/
inductive SameVerdict : Except (Report CompileError) Image → Except (Report CompileError) Image → Prop
  | image (image : Image) : SameVerdict (.ok image) (.ok image)
  | refused {report report' : Report CompileError} (kind : report'.kind = report.kind)
      (message : report'.message = report.message) : SameVerdict (.error report) (.error report')

/-- What sort of fault a report is of, and its wording, are matters of its cause. -/
theorem SameCause.sameVerdict {result result' : Except (Report CompileError) Image}
    (h : SameCause result result') : SameVerdict result result' := by
  cases h with
  | ok image => exact .image image
  | error cause => exact .refused (congrArg Cause.kind cause) (congrArg Cause.message cause)

namespace Session

/-! ## Renumbered sessions -/

/-- The session as if its lines had other numbers. -/
def renumber (f : Nat → Nat) (session : Session) : Session :=
  ⟨session.state.renumber f, session.events.map (BuildEvent.renumber f)⟩

/-- The session with its line numbers erased. -/
def plain (session : Session) : Session :=
  session.renumber fun _ => 0

variable {session session' : Session} (f : Nat → Nat)

theorem line_renumber (session : Session) (text : String) (number : Nat) :
    (session.renumber f).line text (f number) =
      (session.line text number).map id (renumber f) := by
  have hline := Build.carries_line (f := f) text number session.state
  unfold line renumber
  rw [hline]
  simp only [Outcome.renumber, Prod.map_apply, List.map_append]
  rfl

theorem emissions_renumber :
    (session.renumber f).emissions = session.emissions.map (Emission.renumber f) := by
  unfold emissions renumber
  rw [List.filterMap_map, List.map_filterMap]
  congr 1
  funext event
  cases event <;> rfl

theorem streamItems_renumber (stream : Scope) :
    (session.renumber f).streamItems stream =
      (session.streamItems stream).map (Item.renumber f) := by
  unfold streamItems
  rw [emissions_renumber, List.filter_map, List.map_map, List.map_map]
  rfl

theorem items_renumber : (session.renumber f).items = session.items.map (Item.renumber f) := by
  unfold items
  rw [List.map_append, List.map_flatMap, streamItems_renumber]
  simp only [streamItems_renumber]
  rfl

/-- Line numbers do not matter to laying out, and neither does the source that is quoted. -/
theorem assemble_renumber (lines lines' : List String) :
    SameCause (session.assemble lines) ((session.renumber f).assemble lines') := by
  have hlower : Layout.Renumbered f
      (Layout.lowerAll lines session.items (.empty session.state.labels))
      (Layout.lowerAll lines' (session.renumber f).items
        (.empty (session.renumber f).state.labels)) := by
    rw [items_renumber]
    exact Layout.carries_lowerAll lines lines' session.items _
  unfold assemble EStateM.run
  generalize Layout.lowerAll lines session.items (.empty session.state.labels) = outcome,
    Layout.lowerAll lines' (session.renumber f).items
      (.empty (session.renumber f).state.labels) = outcome' at hlower ⊢
  cases hlower with
  | error layout layout' cause => exact .error (congrArg CompileError.layout cause)
  | ok value layout =>
    have hpatch := patchAll_renumber (f := f) layout.fixups layout.labels lines lines' layout.bytes
    simp only [Layout.renumber]
    generalize patchAll layout.labels lines layout.fixups layout.bytes = patched,
      patchAll layout.labels lines' (layout.fixups.map (Fixup.renumber f)) layout.bytes =
        patched' at hpatch ⊢
    obtain ⟨result, bytes⟩ := patched
    obtain ⟨result', bytes'⟩ := patched'
    obtain ⟨hcause, rfl⟩ := hpatch
    cases hcause with
    | ok => exact .ok _
    | error cause => exact .error (congrArg CompileError.layout cause)

theorem sameCause_blame {α : Type} (lines lines' : List String) (number number' : Nat)
    (error : CompileError) :
    SameCause (.error (blame lines number error) : Except (Report CompileError) α)
      (.error (blame lines' number' error)) :=
  sameCause_orLine _ _ _

theorem checkSize_renumber (lines lines' : List String) (size : Nat) :
    SameCause (session.checkSize lines size) ((session.renumber f).checkSize lines' size) := by
  have hstorage : (session.renumber f).state.storage = session.state.storage := rfl
  unfold checkSize
  rw [hstorage]
  split
  · exact sameCause_blame _ _ _ _ _
  · split
    · exact .ok ()
    · split
      · exact sameCause_blame _ _ _ _ _
      · exact .ok ()

/-- A session is finished or not whatever its line numbers are. -/
theorem finish_renumber (session : Session) (lines lines' : List String) :
    SameCause (session.finish lines) ((session.renumber f).finish lines') := by
  have hblocks : (session.renumber f).state.blocks = session.state.blocks.map (Block.renumber f) :=
    rfl
  unfold finish
  rw [hblocks]
  cases session.state.blocks with
  | cons block outer => exact sameCause_blame _ _ _ _ _
  | nil =>
    exact (assemble_renumber f lines lines').bind fun bytes =>
      (checkSize_renumber f lines lines' bytes.length).bind fun _ => .ok _

/-! ## Lines -/

/-- Sessions that are the same but for line numbers compile a line the same but for line numbers. -/
theorem line_plain (h : session'.plain = session.plain) (text : String) (number number' : Nat) :
    (session'.line text number').1 = (session.line text number).1 ∧
      (session'.line text number').2.plain = (session.line text number).2.plain := by
  have hline := line_renumber (fun _ => 0) session text number
  have hline' := line_renumber (fun _ => 0) session' text number'
  unfold plain at h ⊢
  rw [h, hline] at hline'
  obtain ⟨hresult, hafter⟩ := Prod.ext_iff.1 hline'
  exact ⟨hresult.symm, hafter.symm⟩

theorem endStatement_plain (session : Session) :
    session.endStatement.plain = session.plain.endStatement := by
  simp only [endStatement, plain, renumber, BuildState.renumber]

theorem storage_eq_of_plain (h : session'.plain = session.plain) :
    session'.state.storage = session.state.storage :=
  congrArg (fun session => session.state.storage) h

/-- A blank line between two statements does nothing. -/
theorem endStatement_line_blank (h : session.state.storage.Unpinned) {text : String}
    (blank : Statement.parse text.toList = .ok none) (number : Nat) :
    session.line text number = (.ok (), session) ∧ session.endStatement = session := by
  refine ⟨?_, ?_⟩
  · unfold line Build.line
    rw [blank]
    simp
  · unfold endStatement
    rw [Storage.endStatement_of_unpinned h]

/-- From sessions that are the same but for line numbers, lines with and without blank ones lead to
such sessions again, or stop for the same cause. -/
theorem linesFrom_spaced {lines spaced : List String} (h : Spaced lines spaced) {count : Nat}
    (number' : Nat) (all all' : List String) (hrange : session.InRange count)
    (hplain : session'.plain = session.plain) :
    SameCause (linesFrom all lines (count + 1) session).1
        (linesFrom all' spaced number' session').1 ∧
      (linesFrom all' spaced number' session').2.plain =
        (linesFrom all lines (count + 1) session).2.plain := by
  -- a kept line moves both sessions on, a blank one only the second; that nothing is pinned between
  -- two lines is known of the first session and carries over, the storages being the same
  induction h generalizing session session' count number' with
  | nil => exact ⟨.ok (), hplain⟩
  | keep text rest ih =>
    obtain ⟨hresult, hafter⟩ := line_plain hplain text (count + 1) number'
    rcases hline : session.line text (count + 1) with ⟨error | _, after⟩ <;>
      rcases hline' : session'.line text number' with ⟨error' | _, after'⟩ <;>
      rw [hline, hline'] at hresult hafter <;> cases hresult
    · rw [linesFrom_cons_error hline, linesFrom_cons_error hline']
      exact ⟨sameCause_blame _ _ _ _ _, hafter⟩
    · rw [linesFrom_cons_ok hline, linesFrom_cons_ok hline']
      refine ih _ (hrange.line hline) ?_
      rw [endStatement_plain, endStatement_plain, hafter]
  | blank text blank rest ih =>
    have hunpinned : session'.state.storage.Unpinned := by
      rw [storage_eq_of_plain hplain]
      exact hrange.unpinned
    obtain ⟨hline', hend'⟩ := endStatement_line_blank hunpinned blank number'
    rw [linesFrom_cons_ok hline', hend']
    exact ih _ hrange hplain

theorem finish_plain (h : session'.plain = session.plain) (lines lines' : List String) :
    SameCause (session.finish lines) (session'.finish lines') := by
  have hfinish := finish_renumber (fun _ => 0) session lines []
  have hfinish' := finish_renumber (fun _ => 0) session' lines' []
  unfold plain at h
  rw [h] at hfinish'
  exact hfinish.trans hfinish'.symm

end Session

/-- **Blank lines do not matter.** Lines and the lines with blank ones put in are compiled to the same
image, or are refused with the same kind and message; so are two sources of such lines. -/
theorem blank_lines_do_not_matter {lines spaced : List String} (h : Spaced lines spaced) :
    SameVerdict (compileLines lines).result (compileLines spaced).result ∧
      ∀ source source', Text.lines source = lines → Text.lines source' = spaced →
        SameVerdict (compile source) (compile source') := by
  have hverdict : SameVerdict (compileLines lines).result (compileLines spaced).result := by
    apply SameCause.sameVerdict
    obtain ⟨hcause, hplain⟩ := Session.linesFrom_spaced h 1 lines spaced Session.inRange_new rfl
    unfold compileLines
    generalize Session.linesFrom lines lines (0 + 1) Session.new = outcome,
      Session.linesFrom spaced spaced 1 Session.new = outcome' at hcause hplain ⊢
    obtain ⟨result, session⟩ := outcome
    obtain ⟨result', session'⟩ := outcome'
    cases hcause with
    | error cause => exact .error cause
    | ok =>
      have hfinish := Session.finish_plain hplain lines spaced
      dsimp only at hfinish ⊢
      generalize session.finish lines = finished, session'.finish spaced = finished' at hfinish ⊢
      cases hfinish with
      | ok image => exact .ok image
      | error cause => exact .error cause
  refine ⟨hverdict, ?_⟩
  rintro source source' rfl rfl
  exact hverdict

/-- A program that writes a letter, with blank lines and remarks put in, and one that jumps nowhere. -/
theorem blank_lines_do_not_matter_remarks :
    let lines := ["var n = 65", "write(n)", "HALT"]
    let spaced := ["", "var n = 65", "-- the letter A", "  ", "write(n)", "HALT", "\t// done"]
    let stray := ["goto nowhere"]
    let strayed := ["", "", "goto nowhere", ""]
    (Spaced lines spaced ∧ (compileLines lines).result = .ok ⟨[33, 65, 209, 0, 192, 0]⟩ ∧
      (compileLines spaced).result = .ok ⟨[33, 65, 209, 0, 192, 0]⟩) ∧
    Spaced stray strayed ∧ SameVerdict (compileLines stray).result (compileLines strayed).result := by
  intro lines spaced stray strayed
  have hok : ∀ {ε α : Type} {result : Except ε α} {a : α}, result.toOption = some a →
      result = .ok a := by
    intro ε α result a h
    cases result with
    | error e => cases h
    | ok b => exact congrArg Except.ok (Option.some.inj h)
  have hblank : ∀ text ∈ ["", "  ", "-- the letter A", "\t// done"],
      (Statement.parse text.toList).toOption = some none := by decide +kernel
  have hspaced : Spaced lines spaced :=
    .blank _ (hok (hblank _ (by simp))) <| .keep _ <| .blank _ (hok (hblank _ (by simp))) <|
      .blank _ (hok (hblank _ (by simp))) <| .keep _ <| .keep _ <|
        .blank _ (hok (hblank _ (by simp))) .nil
  have hstrayed : Spaced stray strayed :=
    .blank _ (hok (hblank _ (by simp))) <| .blank _ (hok (hblank _ (by simp))) <| .keep _ <|
      .blank _ (hok (hblank _ (by simp))) .nil
  have himage : (compileLines lines).result = .ok ⟨[33, 65, 209, 0, 192, 0]⟩ :=
    hok (by decide +kernel)
  have hsame := (blank_lines_do_not_matter hspaced).1
  rw [himage] at hsame
  generalize hresult : (compileLines spaced).result = result at hsame
  cases hsame
  exact ⟨⟨hspaced, himage, rfl⟩, hstrayed, (blank_lines_do_not_matter hstrayed).1⟩

end ByteBasic
