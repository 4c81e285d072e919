import ByteBasic.Proofs.Program.Outlining
import ByteBasic.Proofs.Program.Resolving
import ByteBasic.Proofs.Program.Streams

/-!
# Names that are defined twice

A label of the source is placed by every line that defines it, in the stream that is open there. So
the named labels of a stream are the definitions of its lines, in the order of the source
(`Session.Reached.definitions`). The streams are laid out one after the other, global code first and
then the functions in the order of their definition: of two definitions of one name, the one that is
in the way is the lower of the two, unless it is in a function and the other in global code.

**Theorem (`redefinitions_are_blamed`).** A label is reported as defined twice on a line that defines
it, and another line defines it, too: an earlier one, or a later one of the global code if the line is
in a function.
-/

namespace ByteBasic

open Source (defines? DefinedAt scopeAt)
open Build (SteeredLine Owns)

/-! ## Streams in layout order -/

/-- Streams in the order in which they are laid out. -/
def Scope.Before : Scope → Scope → Prop
  | .global, .function _ => True
  | .function first, .function second => first < second
  | _, .global => False

/-- What was put out, in the order in which it is laid out when there is a number of functions. -/
def arranged (functions : Nat) (out : List (Scope × Item)) : List (Scope × Item) :=
  (out.filter fun entry => entry.1 == .global) ++ (List.range functions).flatMap fun id =>
    out.filter fun entry => entry.1 == .function id

theorem laidOut_eq (functions : Nat) (out : List (Scope × Item)) :
    laidOut functions out = (arranged functions out).map Prod.snd := by
  rw [arranged, List.map_append, List.map_flatMap]
  rfl

theorem mem_of_mem_arranged {functions : Nat} {out : List (Scope × Item)} {entry : Scope × Item}
    (h : entry ∈ arranged functions out) : entry ∈ out := by
  rcases List.mem_append.1 h with h | h
  · exact (List.mem_filter.1 h).1
  · obtain ⟨id, -, h⟩ := List.mem_flatMap.1 h
    exact (List.mem_filter.1 h).1

/-- What is related in the order it was put out is so within each stream. -/
theorem pairwise_arranged {functions : Nat} {out : List (Scope × Item)}
    {ordered : Scope × Item → Scope × Item → Prop} (h : out.Pairwise ordered) :
    (arranged functions out).Pairwise fun first second =>
      (first.1 = second.1 ∧ ordered first second) ∨ first.1.Before second.1 := by
  have hstream : ∀ {entry : Scope × Item} {scope : Scope},
      entry ∈ out.filter (fun entry => entry.1 == scope) → entry.1 = scope :=
    fun hmem => beq_iff_eq.1 (List.mem_filter.1 hmem).2
  have hsame : ∀ scope, (out.filter fun entry => entry.1 == scope).Pairwise fun first second =>
      (first.1 = second.1 ∧ ordered first second) ∨ first.1.Before second.1 := by
    intro scope
    refine (h.sublist List.filter_sublist).imp_of_mem fun hfirst hsecond hordered => .inl ?_
    exact ⟨(hstream hfirst).trans (hstream hsecond).symm, hordered⟩
  have hfunctions : ((List.range functions).flatMap fun id =>
      out.filter fun entry => entry.1 == .function id).Pairwise fun first second =>
        (first.1 = second.1 ∧ ordered first second) ∨ first.1.Before second.1 := by
    refine List.pairwise_flatMap.2 ⟨fun id _ => hsame _, ?_⟩
    refine List.pairwise_lt_range.imp fun hlt first hfirst second hsecond => .inr ?_
    rw [hstream hfirst, hstream hsecond]
    exact hlt
  refine List.pairwise_append.2 ⟨hsame .global, hfunctions, fun first hfirst second hsecond => ?_⟩
  obtain ⟨id, -, hsecond⟩ := List.mem_flatMap.1 hsecond
  rw [hstream hfirst, hstream hsecond]
  exact .inr trivial

/-! ## Definitions -/

/-- A definition of a label: the stream that it is in, the name and the number of the line. -/
structure Definition where
  scope : Scope
  name : String
  line : Nat

/-- A definition is laid out ahead of another: above it in the same stream, or in a stream ahead. -/
def Definition.Precedes (first second : Definition) : Prop :=
  (first.scope = second.scope ∧ first.line < second.line) ∨ first.scope.Before second.scope

/-- The definition that an item is: it places a label that the source can refer to. -/
def Labels.definition? (labels : Labels) (entry : Scope × Item) : Option Definition :=
  match entry.2 with
  | .label id line => if labels.isNamed id then some ⟨entry.1, labels.name id, line⟩ else none
  | _ => none

/-- The definitions of the lines, in order. -/
def Source.definitions (lines : List String) (count : Nat) : List Definition :=
  (List.range count).filterMap fun index =>
    (lines[index]?.bind defines?).map fun name => ⟨scopeAt lines index, name, index + 1⟩

open Source (definitions)

section Lists

variable {lines : List String} {count : Nat} {definition : Definition}

theorem mem_definitions : definition ∈ definitions lines count ↔
    ∃ index < count, DefinedAt lines definition.name index ∧
      definition.scope = scopeAt lines index ∧ definition.line = index + 1 := by
  unfold Source.definitions DefinedAt
  simp only [List.mem_filterMap, List.mem_range, Option.map_eq_some_iff]
  constructor
  · rintro ⟨index, hindex, name, hname, rfl⟩
    exact ⟨index, hindex, hname, rfl, rfl⟩
  · rintro ⟨index, hindex, hname, hscope, hline⟩
    refine ⟨index, hindex, definition.name, hname, ?_⟩
    rw [← hscope, ← hline]

theorem pairwise_definitions (lines : List String) (count : Nat) :
    (definitions lines count).Pairwise fun first second => first.line < second.line := by
  refine List.pairwise_filterMap.2 (List.pairwise_lt_range.imp ?_)
  intro index later hlt first hfirst second hsecond
  obtain ⟨_, -, rfl⟩ := Option.map_eq_some_iff.1 hfirst
  obtain ⟨_, -, rfl⟩ := Option.map_eq_some_iff.1 hsecond
  exact Nat.succ_lt_succ hlt

theorem definitions_succ (lines : List String) (count : Nat) :
    definitions lines (count + 1) = definitions lines count ++
      ((lines[count]?.bind defines?).map fun name =>
        ⟨scopeAt lines count, name, count + 1⟩).toList := by
  unfold Source.definitions
  rw [List.range_succ, List.filterMap_append]
  rfl

/-- Streams of functions follow each other as their lines do; only global code is laid out ahead of
lines above it. -/
theorem lt_or_of_before {index other : Nat}
    (h : (scopeAt lines other).Before (scopeAt lines index)) :
    other < index ∨
      index < other ∧ scopeAt lines other = .global ∧ scopeAt lines index ≠ .global := by
  rcases hother : scopeAt lines other with _ | first <;>
    rcases hindex : scopeAt lines index with _ | second <;> rw [hother, hindex] at h
  · exact h.elim
  · rcases Nat.lt_trichotomy other index with hlt | rfl | hlt
    · exact .inl hlt
    · rw [hother] at hindex
      cases hindex
    · exact .inr ⟨hlt, rfl, fun hno => by cases hno⟩
  · exact h.elim
  · exact .inl ((Source.sayings lines).lt_of_scope h hother hindex)

end Lists

/-! ## What a line defines -/

namespace Labels

variable {before after labels : Labels} {entry : Scope × Item} {items : List (Scope × Item)}

theorem definition?_of_unnamed (h : ∀ id ∈ entry.2.placed, id ∈ labels.unnamed) :
    labels.definition? entry = none := by
  unfold definition?
  split
  · next id line hitem =>
    have hid := mem_unnamed.1 (h id (Item.mem_placed.2 ⟨line, hitem⟩))
    simp [hid.2]
  · rfl

theorem definition?_named {id : LabelId} (h : labels.isNamed id = true) (scope : Scope)
    (line : Nat) : labels.definition? (scope, .label id line) = some ⟨scope, labels.name id, line⟩ :=
  if_pos h

theorem scope_definition? {definition : Definition}
    (h : labels.definition? entry = some definition) : definition.scope = entry.1 := by
  unfold Labels.definition? at h
  split at h
  · split at h
    · cases h
      rfl
    · cases h
  · cases h

/-- Labels that are added define nothing anew. -/
theorem Grows.definition? (h : before.Grows after)
    (hknown : ∀ id ∈ placedLabels (items.map Prod.snd), id < before.size) :
    items.filterMap after.definition? = items.filterMap before.definition? := by
  refine List.filterMap_congr fun entry hentry => ?_
  unfold Labels.definition?
  split
  · next id line hitem =>
    have hid : id < before.size := by
      refine hknown id (List.mem_flatMap.2 ⟨entry.2, List.mem_map_of_mem hentry, ?_⟩)
      exact Item.mem_placed.2 ⟨line, hitem⟩
    rw [h.isNamed hid, h.name_eq hid]
  · rfl

end Labels

theorem Block.owed_subset (block : Block) : ∀ id ∈ block.owed, id ∈ block.labels := by
  unfold owed close Block.labels
  rcases block.kind with ⟨otherwise, _ | _⟩ | ⟨check⟩ | ⟨id⟩ <;> simp [placedLabels, Item.placed]

namespace Build

variable {number : Nat} {before after : Control} {items : List (Scope × Item)}
  {said : Option Statement}

/-- A line that defines no label places none that the source can refer to. -/
theorem SteeredLine.unnamed (h : SteeredLine number before after items said) (owns : Owns before)
    (hsaid : said.bind Statement.defines? = none) :
    ∀ id ∈ placedLabels (items.map Prod.snd), id ∈ after.labels.unnamed := by
  obtain ⟨made, hbalances⟩ := h.balances owns
  have hbalance := hbalances.balance
  rw [hsaid, Option.bind_none, Option.toList_none, List.append_nil] at hbalance
  intro id hid
  rw [hbalances.gains.unnamed]
  rcases List.mem_append.1 (hbalance.subset (List.mem_append_left _ hid)) with howed | hmade
  · obtain ⟨block, hblock, hid⟩ := List.mem_flatMap.1 howed
    exact List.mem_append_left _ (owns.blocks block hblock id (block.owed_subset id hid))
  · exact List.mem_append_right _ hmade

/-- A line defines what it says, in the open stream. -/
theorem SteeredLine.definitions (h : SteeredLine number before after items said)
    (owns : Owns before) :
    items.filterMap after.labels.definition? =
      ((said.bind Statement.defines?).map fun name => ⟨before.current, name, number⟩).toList := by
  cases hsaid : said.bind Statement.defines? with
  | none =>
    have hunnamed := h.unnamed owns hsaid
    refine List.filterMap_eq_nil_iff.2 fun entry hentry => Labels.definition?_of_unnamed ?_
    intro id hid
    exact hunnamed id (List.mem_flatMap.2 ⟨entry.2, List.mem_map_of_mem hentry, hid⟩)
  | some name =>
    obtain ⟨statement, rfl, hdefines⟩ := Option.bind_eq_some_iff.1 hsaid
    cases statement with
    | label label =>
      cases hdefines
      obtain ⟨hafter, rfl⟩ := h
      obtain ⟨hnamed, hname⟩ := Labels.isNamed_of_find? (before.labels.named_spec name).2.2
      rw [hafter, List.filterMap_cons_some (Labels.definition?_named hnamed _ _), hname]
      rfl
    | _ => cases hdefines

/-- One more line adds what it defines to the definitions of the lines above. -/
theorem SteeredLine.definitions_succ {lines : List String} {count : Nat} {out : List (Scope × Item)}
    (h : SteeredLine (count + 1) before after items said) (owns : Owns before)
    (hknown : ∀ id ∈ placedLabels (out.map Prod.snd), id < before.labels.size)
    (hscope : before.current = scopeAt lines count)
    (hsaid : said.bind Statement.defines? = lines[count]?.bind defines?)
    (hout : out.filterMap before.labels.definition? = Source.definitions lines count) :
    (out ++ items).filterMap after.labels.definition? = Source.definitions lines (count + 1) := by
  obtain ⟨made, hbalances⟩ := h.balances owns
  rw [List.filterMap_append, hbalances.gains.grows.definition? hknown, hout, h.definitions owns,
    hsaid, hscope, ByteBasic.definitions_succ]

end Build

/-! ## Line after line -/

namespace Session

variable {lines : List String} {count : Nat} {session : Session} {name : String}

/-- The named labels that were placed are the definitions of the lines, in order. -/
theorem Reached.definitions (h : Reached lines count session) :
    (turning session.events).filterMap session.state.control.labels.definition? =
      Source.definitions lines count := by
  induction h with
  | new => rfl
  | @line count before after text hbefore htext hline ih =>
    obtain ⟨said, hparse, hsteered, hevents⟩ := hbefore.steered hline
    rw [hevents]
    refine hsteered.definitions_succ hbefore.ledger.owns (fun id hid => ?_)
      hbefore.tracks.scope.symm ?_ ih
    · refine hbefore.cover.placed id (List.count_pos_iff.1 ?_)
      rw [hbefore.count_placedLabels]
      exact List.count_pos_iff.2 hid
    · simp [htext, defines?, hparse, Except.toOption]

/-- All named labels that were put out are definitions of lines, in order. -/
theorem Reached.definitions_streamed (h : Reached lines count session) :
    (streamed session.events).filterMap session.state.control.labels.definition? =
      Source.definitions lines count := by
  rw [← h.definitions, turning, List.filterMap_filter]
  refine List.filterMap_congr fun entry _ => ?_
  split
  · rfl
  · next hturns =>
    refine Labels.definition?_of_unnamed fun id hid => ?_
    exact absurd (decide_eq_true (Item.turns_of_mem_placed hid)) hturns

/-- In layout order, the definitions of a name follow the lines of each stream. -/
theorem Reached.pairwise_precedes (h : Reached lines count session) (functions : Nat) :
    ((arranged functions (streamed session.events)).filterMap
      session.state.control.labels.definition?).Pairwise Definition.Precedes := by
  have hordered := pairwise_definitions lines count
  rw [← h.definitions_streamed] at hordered
  refine List.pairwise_filterMap.2
    ((pairwise_arranged (List.pairwise_filterMap.1 hordered)).imp ?_)
  intro first second hrelated definition hdefinition later hlater
  unfold Definition.Precedes
  rw [Labels.scope_definition? hdefinition, Labels.scope_definition? hlater]
  exact hrelated.imp_left fun hsame => ⟨hsame.1, hsame.2 definition hdefinition later hlater⟩

/-- What is reported as defined twice is defined by the line of the report and by one that is laid out
ahead of it. -/
theorem Closed.precedes_of_repeats (h : Closed lines session) {report : Report CompileError}
    (hrepeats : Repeats lines session report name) :
    ∃ first ∈ Source.definitions lines lines.length,
      ∃ second ∈ Source.definitions lines lines.length, first.name = name ∧ second.name = name ∧
        first.Precedes second ∧ report.line = some (sourceLine lines second.line) := by
  obtain ⟨ahead, id, line, behind, hitems, hahead, hname, hline⟩ := hrepeats
  have htwice := two_le_count_placedLabels hahead line behind
  rw [← hitems] at htwice
  have hnamed : session.state.control.labels.isNamed id = true :=
    (Labels.isNamed_of_find? (h.find?_of_twice htwice)).1
  have hprecedes := h.reached.pairwise_precedes session.state.functions.length
  have hdefinitions := h.reached.definitions_streamed
  rw [Session.items_eq, laidOut_eq] at hitems
  obtain ⟨front, back, harranged, rfl, hback⟩ := List.map_eq_append_iff.1 hitems
  obtain ⟨⟨scope, _⟩, rest, rfl, rfl, -⟩ := List.map_eq_cons_iff.1 hback
  obtain ⟨item, hitem, hplaced⟩ := List.mem_flatMap.1 hahead
  obtain ⟨⟨place, _⟩, hentry, rfl⟩ := List.mem_map.1 hitem
  obtain ⟨number, rfl⟩ := Item.mem_placed.1 hplaced
  have hfirst := Labels.definition?_named hnamed place number
  have hsecond := Labels.definition?_named hnamed scope line
  -- Both items were put out by lines, so both are definitions of lines.
  have hmem : ∀ {entry definition}, entry ∈ front ++ (scope, .label id line) :: rest →
      session.state.control.labels.definition? entry = some definition →
      definition ∈ Source.definitions lines lines.length := by
    intro entry definition hentry hdefinition
    rw [← hdefinitions]
    rw [← harranged] at hentry
    exact List.mem_filterMap.2 ⟨entry, mem_of_mem_arranged hentry, hdefinition⟩
  refine ⟨_, hmem (List.mem_append_left _ hentry) hfirst, _, hmem (by simp) hsecond, hname, hname,
    ?_, hline⟩
  rw [harranged, List.filterMap_append, List.filterMap_cons_some hsecond] at hprecedes
  exact (List.pairwise_append.1 hprecedes).2.2 _ (List.mem_filterMap.2 ⟨_, hentry, hfirst⟩) _
    (List.mem_cons_self ..)

end Session

/-! ## Refused lines -/

theorem CompileError.ofLine_of_value {error : CompileError} (h : error.kind = .value) :
    error.OfLine := by
  cases error with
  | layout fault => cases fault <;> cases h
  | _ => trivial

namespace Build

variable {α β : Type}

/-- A step that fails only with faults of the line, and never with one of the layout. -/
def FailsOfLine (action : Build α) : Prop :=
  ∀ state error, (action.run state).result = .error error → error.OfLine

theorem FailsOfLine.of_ok {action : Build α} (h : ∀ state, ∃ a, (action.run state).result = .ok a) :
    FailsOfLine action := by
  intro state error herror
  obtain ⟨a, hok⟩ := h state
  rw [hok] at herror
  cases herror

theorem FailsOfLine.bind {action : Build α} {next : α → Build β} (h : FailsOfLine action)
    (hnext : ∀ a, FailsOfLine (next a)) : FailsOfLine (action >>= next) := by
  intro state error herror
  rw [Action.run_bind] at herror
  rcases hrun : action.run state with ⟨fault | a, middle, output⟩
  · rw [hrun] at herror
    cases herror
    exact h state _ (congrArg Outcome.result hrun)
  · rw [hrun] at herror
    exact hnext a middle error herror

theorem thorough_failsOfLine : Thorough FailsOfLine where
  pure a := .of_ok fun _ => ⟨a, rfl⟩
  fail _ hfault state error herror := by
    cases herror
    exact hfault
  bind := .bind
  storing operation state error herror := by
    rcases hrun : operation.run state.storage with ⟨fault | a, after, events⟩ <;>
      rw [run_storing hrun] at herror <;> cases herror
    trivial
  instruct _ := .of_ok fun _ => ⟨(), rfl⟩
  referent _ _ _ herror := CompileError.ofLine_of_value (Referent.kind_ofOperand herror)
  registerOf _ := .of_ok fun _ => ⟨_, rfl⟩
  get hnext state := hnext state state
  emit _ := .of_ok fun _ => ⟨(), rfl⟩
  modify _ _ := .of_ok fun _ => ⟨(), rfl⟩

/-- A line is refused for a fault of its own. -/
theorem failsOfLine_line (text : String) (number : Nat) : FailsOfLine (line text number) := by
  have hmodify : ∀ change, FailsOfLine (Action.modify change) := fun _ => .of_ok fun _ => ⟨(), rfl⟩
  unfold line
  split
  · exact thorough_failsOfLine.fail _ trivial
  · exact thorough_failsOfLine.pure _
  · next statement _ =>
    cases statement with
    | declare name value => exact thorough_failsOfLine.declare (fun _ _ => hmodify _) name value number
    | close => exact thorough_failsOfLine.closeBlock (fun _ => hmodify _) number
    | function name => exact thorough_failsOfLine.defineFunction (fun _ => hmodify _) name number
    | _ => exact thorough_failsOfLine.statement number (by simp) (by simp) (by simp)

end Build

/-- What is reported as defined twice is placed twice by a closed session. -/
theorem repeats_of_compile {source name : String} {report : Report CompileError}
    (hreport : compile source = .error report)
    (hcause : report.cause = .layout (.duplicateLabel name)) :
    ∃ session, Session.Closed (Text.lines source) session ∧
      Session.Repeats (Text.lines source) session report name := by
  rcases Session.take_cases (Text.lines source) _ (Nat.le_refl _) with
    ⟨session, hall, hreached⟩ | ⟨index, before, text, error, after, -, -, -, hline, hall⟩
  · rw [List.take_length] at hall
    rw [compile_eq_finish hall] at hreport
    by_cases hblocks : session.state.blocks = []
    · have hclosed : session.Closed (Text.lines source) := ⟨hreached, hblocks⟩
      exact ⟨session, hclosed, (hclosed.finish_error hreport).duplicate name hcause⟩
    · obtain ⟨keyword, hopen⟩ := Session.cause_of_open hblocks hreport
      rw [hcause] at hopen
      cases hopen
  · rw [List.take_length] at hall
    rw [compile_eq_error hall] at hreport
    cases hreport
    rw [Session.cause_blame] at hcause
    have hfault := Build.failsOfLine_line text (index + 1) before.state error
      (congrArg Prod.fst hline)
    rw [hcause] at hfault
    exact hfault.elim

/-- **Redefinitions are blamed.** When a label is reported as defined twice, the report is on a line
that defines the label, and another line defines it, too: an earlier one, or else a later one of the
global code, which is laid out ahead of all functions, while the line is in a function. -/
theorem redefinitions_are_blamed (source : String) (report : Report CompileError) (name : String)
    (hreport : compile source = .error report)
    (hcause : report.cause = .layout (.duplicateLabel name)) :
    let lines := Text.lines source
    ∃ index text, lines[index]? = some text ∧
      report = ⟨.layout (.duplicateLabel name), some ⟨index + 1, text⟩⟩ ∧
      DefinedAt lines name index ∧
      ∃ other, DefinedAt lines name other ∧ (other < index ∨
        index < other ∧ scopeAt lines other = .global ∧ scopeAt lines index ≠ .global) := by
  intro lines
  obtain ⟨session, hclosed, hrepeats⟩ := repeats_of_compile hreport hcause
  obtain ⟨first, hfirst, second, hsecond, hname, hname', hprecedes, hline⟩ :=
    hclosed.precedes_of_repeats hrepeats
  obtain ⟨other, -, hdefined, hscope, hnumber⟩ := mem_definitions.1 hfirst
  obtain ⟨index, (hindex : index < lines.length), hdefined', hscope', hnumber'⟩ :=
    mem_definitions.1 hsecond
  rw [hname] at hdefined
  rw [hname'] at hdefined'
  have hsource : sourceLine lines (index + 1) = ⟨index + 1, lines[index]⟩ := by
    simp [sourceLine, hindex]
  rw [hnumber', hsource] at hline
  refine ⟨index, lines[index], List.getElem?_eq_getElem hindex, ?_, hdefined', other, hdefined, ?_⟩
  · rw [← hcause, ← hline]
  · rw [Definition.Precedes, hscope, hscope', hnumber, hnumber'] at hprecedes
    rcases hprecedes with ⟨-, hlt⟩ | hbefore
    · exact .inl (Nat.lt_of_succ_lt_succ hlt)
    · exact lt_or_of_before hbefore

/-- A label in a function and again in the global code below it: the report is on the line in the
function. -/
theorem compile_redefined : compile "function f()\n:L\nend\n:L\nHALT" =
    .error ⟨.layout (.duplicateLabel "L"), some ⟨2, ":L"⟩⟩ := by
  decide +kernel

/-- That line is in a function, and the other one in the global code. -/
theorem redefinitions_are_blamed_function :
    let source := "function f()\n:L\nend\n:L\nHALT"
    compile source = .error ⟨.layout (.duplicateLabel "L"), some ⟨2, ":L"⟩⟩ ∧
      ∃ other, DefinedAt (Text.lines source) "L" other ∧ (other < 1 ∨
        1 < other ∧ scopeAt (Text.lines source) other = .global ∧
          scopeAt (Text.lines source) 1 ≠ .global) := by
  intro source
  obtain ⟨index, text, -, hline, -, hother⟩ :=
    redefinitions_are_blamed source _ "L" compile_redefined rfl
  obtain rfl : index = 1 := by
    cases hline
    rfl
  exact ⟨compile_redefined, hother⟩

/-- The line that is reported need not be the lower one of the two. -/
theorem redefinition_above :
    ¬ ∀ source report name, compile source = .error report →
      report.cause = .layout (.duplicateLabel name) →
      ∃ index text, report.line = some ⟨index + 1, text⟩ ∧
        DefinedAt (Text.lines source) name index ∧
        ∃ earlier < index, DefinedAt (Text.lines source) name earlier := by
  intro hall
  let source := "function f()\n:L\nend\n:L\nHALT"
  have hfirst : (Text.lines source)[0]?.bind defines? = none := by decide +kernel
  obtain ⟨index, text, hline, -, earlier, hlt, hdefined⟩ := hall source _ "L" compile_redefined rfl
  obtain rfl : index = 1 := by
    cases hline
    rfl
  obtain rfl : earlier = 0 := Nat.lt_one_iff.1 hlt
  rw [DefinedAt, hfirst] at hdefined
  cases hdefined

end ByteBasic
