import ByteBasic.Proofs.Code.Accesses
import ByteBasic.Proofs.Compiler.Finding
import ByteBasic.Proofs.Compiler.Sessions

/-!
# What a source is refused for

`compile?` compiles a source with every variable, label and function looked up by its number where
that is used, and comes to nothing at the first number that leads nowhere. Since a session keeps
everything in range, that never happens.

**Theorem (`refused_for_the_source`).** A source that is refused is refused for a fault of its own,
which is blamed on one of its lines: registers never run out, and the compiler never contradicts
itself. On the way every number that it uses is in range.
-/

namespace ByteBasic

/-! ## Sessions with all numbers looked up -/

namespace Session

def line? (session : Session) (text : String) (number : Nat) :
    Option (Except CompileError Unit × Session) := do
  let outcome ← (Build.line? text number).run session.state
  return (outcome.result, ⟨outcome.state, session.events ++ outcome.output⟩)

def endStatement? (session : Session) : Option Session := do
  let outcome ← Storage.endStatement?.run session.state.storage
  return { session with state := { session.state with storage := outcome.state } }

def linesFrom? (all : List String) :
    List String → Nat → Session → Option (Except (Report CompileError) Unit × Session)
  | [], _, session => some (.ok (), session)
  | text :: rest, number, session => do
    match ← session.line? text number with
    | (.error error, session) => return (.error (blame all number error), session)
    | (.ok (), session) => linesFrom? all rest (number + 1) (← session.endStatement?)

def assemble? (session : Session) (lines : List String) :
    Option (Except (Report CompileError) (List UInt8)) := do
  match ← (Layout.lowerAll? lines session.items).run (Layout.empty session.state.labels) with
  | ⟨.error report, _, _⟩ => return .error (report.map .layout)
  | ⟨.ok (), layout, _⟩ =>
    let patched := patchAll? layout.labels lines layout.fixups layout.bytes
    match ← patched.1 with
    | .error report => return .error (report.map .layout)
    | .ok () => return .ok patched.2

def finish? (session : Session) (lines : List String) :
    Option (Except (Report CompileError) Image) :=
  match session.state.blocks with
  | block :: _ => some (.error (blame lines block.line (.unterminated block.keyword)))
  | [] => do
    let assembled ← session.assemble? lines
    return do
      let bytes ← assembled
      session.checkSize lines bytes.length
      return ⟨bytes⟩

end Session

/-- The image of a source, or the report on the first fault found in it; nothing, if a number that is
used on the way is that of no variable, label or function. -/
def compile? (source : String) : Option (Except (Report CompileError) Image) := do
  let lines := Text.lines source
  match ← Session.linesFrom? lines lines 1 Session.new with
  | (.error report, _) => return .error report
  | (.ok (), session) => session.finish? lines

/-! ## All numbers lead somewhere -/

/-- Every number that a state holds or can find is that of something that exists. -/
structure BuildState.InBounds (state : BuildState) : Prop where
  owners : ∀ r id, state.storage.owner r = some (.variable id) → id < state.storage.vars.length
  names : ∀ name scope id, state.storage.lookup? name scope = some id →
    id < state.storage.vars.length
  forward : ∀ id ∈ state.forwardDeclared, id < state.storage.vars.length
  current : ∀ id, state.current = .function id → id < state.functions.length
  mains : ∀ function ∈ state.functions, function.main < state.labels.size
  labels : ∀ name id, state.labels.find? name = some id → id < state.labels.size
  blocks : ∀ block ∈ state.blocks, (∀ label ∈ block.labels, label < state.labels.size) ∧
    ∀ id, block.kind = .function id → id < state.functions.length

theorem BuildState.Ranged.inBounds {number : Nat} {state : BuildState}
    (h : state.Ranged number) : state.InBounds where
  owners r id howner := Storage.lt_of_register ((h.tidy.agrees id r).2 howner)
  names _ _ _ := Referent.lt_of_lookup?
  forward := h.forward
  current := h.current
  mains := h.mains
  labels _ _ hfind := (List.findIdx?_eq_some_iff_getElem.1 hfind).1
  blocks block hblock := ⟨(h.blocks block hblock).labels, (h.blocks block hblock).function⟩

namespace Session

variable {session : Session} {count : Nat} {lines : List String}

theorem line?_eq (h : session.state.Anchored) (text : String) (number : Nat) :
    session.line? text number = some (session.line text number) := by
  unfold line?
  rw [(Build.follows_line h text number).run_eq]
  rfl

theorem endStatement?_eq (h : session.state.Anchored) :
    session.endStatement? = some session.endStatement := by
  unfold endStatement?
  rw [(Storage.follows_endStatement h.owners).run_eq]
  rfl

theorem InRange.anchored (h : session.InRange count) : session.state.Anchored :=
  ⟨h.state.inBounds.owners, h.state.inBounds.current⟩

theorem anchored_line (h : session.state.Anchored) {text : String} {number : Nat} {after : Session}
    (hline : session.line text number = (.ok (), after)) : after.state.Anchored := by
  have hok : ((Build.line text number).run session.state).result = .ok () :=
    congrArg Prod.fst hline
  have hafter := ((Build.follows_line h text number).ok () hok).anchored
  rwa [show after.state = ((Build.line text number).run session.state).state from
    congrArg (fun outcome => outcome.2.state) hline.symm]

/-- Lines in turn find all that they look up. -/
theorem InRange.linesFrom?_eq (h : session.InRange count) (all rest : List String) :
    linesFrom? all rest (count + 1) session = some (Session.linesFrom all rest (count + 1) session) := by
  induction rest generalizing session count with
  | nil => rfl
  | cons text rest ih =>
    rw [linesFrom?, line?_eq h.anchored]
    rcases hline : session.line text (count + 1) with ⟨error | _, after⟩
    · rw [linesFrom_cons_error hline]
      rfl
    · rw [linesFrom_cons_ok hline, ← ih (h.line hline)]
      simp only [endStatement?_eq (anchored_line h.anchored hline), Option.bind_eq_bind,
        Option.bind_some]

theorem InRange.labels_lt (h : session.InRange count) : ∀ item ∈ session.items,
    ∀ label ∈ item.labels, label < session.state.labels.size := by
  intro item hitem label hlabel
  obtain ⟨emission, hmem, rfl⟩ := mem_items hitem
  obtain ⟨⟨number, -, -, hrange⟩, hsize⟩ := h.emissions emission hmem
  exact Nat.lt_of_lt_of_le (hrange.labels label hlabel) hsize

/-- Laying out and filling in find all that they look up. -/
theorem InRange.assemble?_eq (h : session.InRange count) (lines : List String) :
    session.assemble? lines = some (session.assemble lines) := by
  have hfollows : (Layout.lowerAll? lines session.items).Follows
      (Layout.action (Layout.lowerAll lines session.items)) (.empty session.state.labels) _ :=
    Layout.follows_lowerAll h.labels_lt
  unfold assemble? assemble
  rw [hfollows.run_eq]
  cases hrun : (Layout.lowerAll lines session.items).run (.empty session.state.labels) with
  | error report layout =>
    have haction := Layout.action_run_error hrun
    simp only [haction, Option.bind_eq_bind, Option.bind_some, Option.pure_def]
  | ok _ layout =>
    have haction := Layout.action_run_ok hrun
    have hpatch := patchAll?_eq (Layout.known_fixups h.labels_lt hrun) lines layout.bytes
    simp only [haction, hpatch, Option.bind_eq_bind, Option.bind_some, Option.pure_def]
    rcases patchAll layout.labels lines layout.fixups layout.bytes with ⟨_ | _, bytes⟩
    · rfl
    · rfl

theorem InRange.finish?_eq (h : session.InRange count) (lines : List String) :
    session.finish? lines = some (session.finish lines) := by
  unfold finish? finish
  cases session.state.blocks with
  | cons block outer => rfl
  | nil =>
    dsimp only
    rw [h.assemble?_eq lines]
    rfl

end Session

/-- Compiling a source finds all that it looks up. -/
theorem compile?_eq (source : String) : compile? source = some (compile source) := by
  have hall := Session.inRange_new.linesFrom?_eq (Text.lines source) (Text.lines source)
  have hruns := Session.runs_new (Nat.le_refl (Text.lines source).length)
  unfold compile?
  simp only [hall, Option.bind_eq_bind, Option.bind_some]
  rcases hlines : Session.linesFrom (Text.lines source) (Text.lines source) 1 .new with
    ⟨report | _, session⟩
  · rw [compile_eq_error hlines]
    rfl
  · rw [hlines] at hruns
    rw [compile_eq_finish hlines]
    exact (hruns.ok rfl).finish?_eq (Text.lines source)

/-! ## All sources -/

/-- **Faults are the source's.** A source that is refused is refused for what it says, and never for
want of a register or for a contradiction in the compiler; the report is blamed on a line of the
source, with that line's text. Every number of a variable, a label or a function that is used on the
way leads somewhere, so compiling with all of them looked up gives the same result. Whatever lines
have been compiled, every state in which something was put out and the state after them are in
bounds, and what was put out mentions only registers, amounts and labels that exist. -/
theorem refused_for_the_source (source : String) :
    (∀ report, compile source = .error report →
      (report.kind = .parse ∨ report.kind = .value ∨ report.kind = .jump ∨
        report.kind = .compile) ∧
      ∃ index, ∃ h : index < (Text.lines source).length,
        report.line = some ⟨index + 1, (Text.lines source)[index]⟩) ∧
    compile? source = some (compile source) ∧
    ∀ count,
      let begun := (Text.lines source).take count
      let outcome := Session.linesFrom (Text.lines source) begun 1 Session.new;
      (outcome.1 = .ok () → outcome.2.state.InBounds) ∧
      ∀ emission ∈ outcome.2.emissions, emission.state.InBounds ∧ emission.item.Fits ∧
        ∀ label ∈ emission.item.labels, label < emission.state.labels.size := by
  refine ⟨fun report hreport => ?_, compile?_eq source, fun count => ?_⟩
  · have hblamed : Blamed (Text.lines source) report := by
      have hall := Session.runs_new (Nat.le_refl (Text.lines source).length)
      unfold compile compileLines at hreport
      rcases hlines : Session.linesFrom (Text.lines source) (Text.lines source) 1 Session.new with
        ⟨fault | _, session⟩
      · rw [hlines] at hreport hall
        cases hreport
        exact hall.error report rfl
      · rw [hlines] at hreport hall
        simp only at hreport
        cases hfinish : session.finish (Text.lines source) with
        | error fault =>
          rw [hfinish] at hreport
          cases hreport
          exact (hall.ok rfl).finish_error hfinish
        | ok image =>
          rw [hfinish] at hreport
          cases hreport
    exact ⟨hblamed.refused, hblamed.line⟩
  · have hall := Session.runs_new (List.length_take_le' count (Text.lines source))
    refine ⟨fun hok => (hall.ok hok).state.inBounds, fun emission hmem => ?_⟩
    obtain ⟨number, -, -, hrange⟩ := hall.emissions emission hmem
    exact ⟨hrange.state.inBounds, hrange.fits, hrange.labels⟩

end ByteBasic
