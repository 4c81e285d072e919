import ByteBasic.Proofs.Program.Tracing

/-!
# What is known at a line

What a name means and which block a line is in can be read off the lines above (`Source.Outline`). The
compiler knows the same (`Tracks`). It also has numbers of its own for blocks and functions; they
belong to the lines on which these were opened and defined:

* `Trace.opened`: the labels of an open block are those that its first line made.
* `Trace.founded`: the label of a function is the one that the line of its definition placed.
* `Trace.nested`: a function is open exactly when code goes to its stream.

All of it is proved along the lines, from what one line does to blocks, functions and the open stream
(`Build.Turns`).
-/

namespace ByteBasic

open Source (Program Outline Opener)
open Build (Continues Says Compiled streamBehind)

/-! ## Names, functions and blocks -/

/-- What opened a block. -/
def Block.opener (block : Block) : Opener :=
  match block.kind with
  | .branch _ _ => .branch
  | .loop _ => .loop
  | .function _ => .function

/-- The function of a block that is the body of one. -/
def Block.function? (block : Block) : Option FunctionId :=
  match block.kind with
  | .function id => some id
  | _ => none

/-- A block as it was opened, or with its `else` since. -/
def Block.Became (first block : Block) : Prop :=
  block = first ∨ ∃ label, first.kind = .branch label false ∧
    block = { first with kind := .branch label true }

/-- The function that a stream is the body of. -/
def Scope.function? : Scope → Option FunctionId
  | .global => none
  | .function id => some id

/-- The compiler knows what is known from the lines above. -/
structure Tracks (outline : Outline) (state : BuildState) : Prop where
  names : outline.names = state.storage.vars.map fun var => (var.name, var.scope)
  functions : outline.functions.map Prod.fst = state.functions.map Function.name
  scope : outline.scope = state.current
  blocks : outline.blocks = state.blocks.map fun block => (block.opener, block.line - 1)

namespace Tracks

variable {outline : Outline} {state before after : BuildState} {line : Nat}

theorem find? (h : Tracks outline state) (name : String) (scope : Scope) :
    outline.find? name scope = state.storage.find? name scope := by
  unfold Outline.find? Storage.find?
  rw [h.names, List.findIdx?_map]
  rfl

theorem lookup? (h : Tracks outline state) (name : String) :
    outline.lookup? name = state.storage.lookup? name state.current := by
  have hlocal := h.find? name state.current
  unfold Outline.lookup? Storage.lookup?
  rw [h.scope]
  cases hfind : state.storage.find? name state.current with
  | some id => rw [hlocal, hfind]
  | none =>
    rw [hlocal, hfind]
    exact h.find? name .global

theorem continues (h : Tracks outline before) (hc : Continues before after) :
    Tracks outline after := by
  refine ⟨?_, ?_, ?_, ?_⟩
  · rw [hc.same.names_eq]
    exact h.names
  · rw [hc.functions]
    exact h.functions
  · rw [hc.current]
    exact h.scope
  · rw [hc.blocks]
    exact h.blocks

theorem declares (h : Tracks outline state) {name : String} {storage : Storage} {id : VarId}
    (hd : Storage.Declares name state.current state.storage storage id) :
    Tracks (outline.declare name) { state with storage := storage } := by
  have hfind := h.find? name outline.scope
  unfold Outline.declare
  rcases hd with ⟨hold, rfl⟩ | ⟨hnew, -, rfl⟩
  · rw [hfind, h.scope, hold]
    exact ⟨h.names, h.functions, h.scope, h.blocks⟩
  · rw [hfind, h.scope, hnew]
    refine ⟨?_, h.functions, rfl, h.blocks⟩
    simp only [Storage.extended, List.map_append, h.names]
    rfl

theorem push (h : Tracks outline state) {opener : Opener} {block : Block}
    (hopener : block.opener = opener) (hline : block.line = line + 1) :
    Tracks (outline.push opener line) { state with blocks := block :: state.blocks } := by
  refine ⟨h.names, h.functions, h.scope, ?_⟩
  rw [Outline.push, List.map_cons, hopener, hline, Nat.add_sub_cancel, h.blocks]

theorem otherwise (h : Tracks outline state) {block : Block} {outer : List Block}
    {label : LabelId} (hblocks : state.blocks = block :: outer)
    (hkind : block.kind = .branch label false) :
    Tracks outline
      { state with blocks := { block with kind := .branch label true } :: outer } := by
  refine ⟨h.names, h.functions, h.scope, ?_⟩
  rw [h.blocks, hblocks]
  simp [Block.opener, hkind]

theorem pop (h : Tracks outline state) {block : Block} {outer : List Block}
    (hblocks : state.blocks = block :: outer) :
    Tracks outline.pop
      { state with blocks := outer, current := streamBehind block state.current } := by
  have hopen := h.blocks
  rw [hblocks, List.map_cons] at hopen
  unfold Outline.pop
  rw [hopen]
  refine ⟨h.names, h.functions, ?_, rfl⟩
  rw [h.scope]
  rcases hkind : block.kind with ⟨label, hasElse⟩ | ⟨check⟩ | ⟨id⟩ <;>
    simp [Block.opener, streamBehind, Build.isFunctionBlock, hkind]

theorem length_functions (h : Tracks outline state) :
    outline.functions.length = state.functions.length := by
  have hlength := congrArg List.length h.functions
  rwa [List.length_map, List.length_map] at hlength

theorem define (h : Tracks outline state) {name : String} {block : Block}
    (hkind : block.kind = .function state.functions.length) (hline : block.line = line + 1) :
    Tracks (outline.advance line (some (.function name)))
      { state with
        functions := state.functions ++ [⟨name, block.main⟩]
        current := .function state.functions.length
        blocks := block :: state.blocks } := by
  have hopener : block.opener = .function := by
    unfold Block.opener
    rw [hkind]
  have hdefined : Tracks { outline with
      functions := outline.functions ++ [(name, line)]
      scope := .function outline.functions.length }
      { state with
        functions := state.functions ++ [⟨name, block.main⟩]
        current := .function state.functions.length } := by
    refine ⟨h.names, ?_, congrArg Scope.function h.length_functions, h.blocks⟩
    rw [List.map_append, List.map_append, h.functions]
    rfl
  exact hdefined.push hopener hline

end Tracks

/-! ## From line to line -/

namespace Build

/-- What a line does to the state first of all: it may declare a variable, open or close a block, or
define a function. -/
inductive Begins (number : Nat) (state : BuildState) : Option Statement → BuildState → Prop
  | stays {said : Option Statement}
      (plain : ∀ (outline : Outline) line, outline.advance line said = outline) :
      Begins number state said state
  | declares {name : String} {value : Option Operand} {storage : Storage} {id : VarId}
      (declares : Storage.Declares name state.current state.storage storage id) :
      Begins number state (some (.declare name value)) { state with storage := storage }
  | branches {condition : Condition} {block : Block} {label : LabelId} (line : block.line = number)
      (kind : block.kind = .branch label false) :
      Begins number state (some (.ifBlock condition))
        { state with blocks := block :: state.blocks }
  | loops {condition : Condition} {block : Block} {check : LabelId} (line : block.line = number)
      (kind : block.kind = .loop check) :
      Begins number state (some (.loop condition)) { state with blocks := block :: state.blocks }
  | otherwise {block : Block} {outer : List Block} {label : LabelId}
      (opened : state.blocks = block :: outer) (kind : block.kind = .branch label false) :
      Begins number state (some .otherwise)
        { state with blocks := { block with kind := .branch label true } :: outer }
  | closes {block : Block} {outer : List Block} (opened : state.blocks = block :: outer) :
      Begins number state (some .close)
        { state with blocks := outer, current := streamBehind block state.current }
  | defines {name : String} {block : Block} (global : state.current = .global)
      (kind : block.kind = .function state.functions.length) (line : block.line = number) :
      Begins number state (some (.function name)) { state with
        functions := state.functions ++ [⟨name, block.main⟩]
        current := .function state.functions.length
        blocks := block :: state.blocks }

variable {number line : Nat} {state begun after : BuildState} {said : Option Statement}

/-- Every line begins so and then goes on as all lines do. -/
theorem Says.begins {items : List (Scope × Item)} (h : Says number said state after items) :
    ∃ begun, Begins number state said begun ∧ Continues begun after := by
  cases said with
  | none =>
    rw [(h.blank rfl).1]
    exact ⟨state, .stays fun _ _ => rfl, .refl state⟩
  | some statement =>
    -- What a statement changes first is the part of its outcome that comes before `Continues`.
    have hcompiled := h.compiled statement rfl
    cases statement with
    | declare name value =>
      obtain ⟨storage, id, hdeclares, hcontinues, -⟩ := hcompiled
      exact ⟨_, .declares hdeclares, hcontinues⟩
    | ifBlock condition =>
      obtain ⟨block, label, _, _, _, hkind, hline, hcontinues, -⟩ := hcompiled
      exact ⟨_, .branches hline hkind, hcontinues⟩
    | loop condition =>
      obtain ⟨block, check, _, _, _, hkind, hline, hcontinues, -⟩ := hcompiled
      exact ⟨_, .loops hline hkind, hcontinues⟩
    | otherwise =>
      obtain ⟨block, label, outer, _, hopened, hkind, hcontinues, -⟩ := hcompiled
      exact ⟨_, .otherwise hopened hkind, hcontinues⟩
    | close =>
      obtain ⟨block, outer, _, hopened, hcontinues, -⟩ := hcompiled
      exact ⟨_, .closes hopened, hcontinues⟩
    | function name =>
      obtain ⟨block, _, hglobal, -, -, hkind, hline, hcontinues, -⟩ := hcompiled
      exact ⟨_, .defines hglobal hkind hline, hcontinues⟩
    | assign _ _ => exact ⟨state, .stays fun _ _ => rfl, hcompiled.1⟩
    | ifGoto _ _ => exact ⟨state, .stays fun _ _ => rfl, hcompiled.1⟩
    | ret => exact ⟨state, .stays fun _ _ => rfl, hcompiled.1⟩
    | goto _ => exact ⟨state, .stays fun _ _ => rfl, hcompiled.1⟩
    | label _ => exact ⟨state, .stays fun _ _ => rfl, hcompiled.1⟩
    | halt => exact ⟨state, .stays fun _ _ => rfl, hcompiled.1⟩
    | exit _ => exact ⟨state, .stays fun _ _ => rfl, hcompiled.1⟩
    | call _ _ => exact ⟨state, .stays fun _ _ => rfl, hcompiled.1⟩

theorem Begins.labels (h : Begins number state said begun) : begun.labels = state.labels := by
  cases h <;> rfl

theorem Begins.functions_le (h : Begins number state said begun) :
    state.functions.length ≤ begun.functions.length := by
  cases h with
  | defines _ _ _ =>
    rw [List.length_append]
    exact Nat.le_add_right _ _
  | _ => exact Nat.le_refl _

theorem Begins.vars_le (h : Begins number state said begun) :
    state.storage.vars.length ≤ begun.storage.vars.length := by
  cases h with
  | declares declares =>
    rcases declares with ⟨-, rfl⟩ | ⟨-, -, rfl⟩
    · exact Nat.le_refl _
    · rw [Storage.length_extended]
      exact Nat.le_succ _
  | _ => exact Nat.le_refl _

/-- A line leaves the functions as they are, or is the definition of one more. -/
theorem Begins.functions_eq (h : Begins number state said begun) (outline : Outline) (line : Nat) :
    (outline.advance line said).functions = outline.functions ∧ begun.functions = state.functions ∨
      ∃ name main, said = some (.function name) ∧
        (outline.advance line said).functions = outline.functions ++ [(name, line)] ∧
        begun.functions = state.functions ++ [⟨name, main⟩] := by
  cases h with
  | stays plain => exact .inl ⟨by rw [plain], rfl⟩
  | declares _ =>
    refine .inl ⟨?_, rfl⟩
    simp only [Outline.advance, Outline.declare]
    split <;> rfl
  | branches _ _ => exact .inl ⟨rfl, rfl⟩
  | loops _ _ => exact .inl ⟨rfl, rfl⟩
  | otherwise _ _ => exact .inl ⟨rfl, rfl⟩
  | closes _ =>
    refine .inl ⟨?_, rfl⟩
    simp only [Outline.advance, Outline.pop]
    split <;> rfl
  | @defines name block _ _ _ => exact .inr ⟨name, block.main, rfl, rfl, rfl⟩

/-- An open block was open before the line, or the line opened it, or it has its `else` from the line. -/
theorem Begins.block_of_mem (h : Begins number state said begun) {block : Block}
    (hblock : block ∈ begun.blocks) :
    block ∈ state.blocks ∨
      begun.blocks.head? = some block ∧ block.line = number ∧
        (∀ label, block.kind ≠ .branch label true) ∨
      ∃ was outer label, said = some .otherwise ∧ state.blocks = was :: outer ∧
        was.kind = .branch label false ∧ block = { was with kind := .branch label true } := by
  cases h with
  | stays _ => exact .inl hblock
  | declares _ => exact .inl hblock
  | branches number kind =>
    rcases List.mem_cons.1 hblock with rfl | hblock
    · exact .inr (.inl ⟨rfl, number, by simp [kind]⟩)
    · exact .inl hblock
  | loops number kind =>
    rcases List.mem_cons.1 hblock with rfl | hblock
    · exact .inr (.inl ⟨rfl, number, by simp [kind]⟩)
    · exact .inl hblock
  | @otherwise was outer label opened kind =>
    rcases List.mem_cons.1 hblock with rfl | hblock
    · exact .inr (.inr ⟨was, outer, label, rfl, opened, kind, rfl⟩)
    · exact .inl (by simp [opened, hblock])
  | closes opened => exact .inl (by simp [opened, hblock])
  | defines _ kind number =>
    rcases List.mem_cons.1 hblock with rfl | hblock
    · exact .inr (.inl ⟨rfl, number, by simp [kind]⟩)
    · exact .inl hblock

/-- Closing a block leaves no function open when it is the body of one, and otherwise the same. -/
theorem function?_streamBehind {block : Block} {outer : List Block} {scope : Scope}
    (h : (block :: outer).filterMap Block.function? = scope.function?.toList) :
    outer.filterMap Block.function? = (streamBehind block scope).function?.toList := by
  rcases hkind : block.kind with ⟨label, hasElse⟩ | ⟨check⟩ | ⟨id⟩
  · rw [List.filterMap_cons_none (by simp [Block.function?, hkind])] at h
    simp only [streamBehind, isFunctionBlock, hkind, Bool.false_eq_true, if_false, h]
  · rw [List.filterMap_cons_none (by simp [Block.function?, hkind])] at h
    simp only [streamBehind, isFunctionBlock, hkind, Bool.false_eq_true, if_false, h]
  · -- No other function is open behind the body of a function.
    have hfunction : block.function? = some id := by simp [Block.function?, hkind]
    rw [List.filterMap_cons_some hfunction] at h
    have hlast : outer.filterMap Block.function? = [] := by
      cases scope with
      | global => simp [Scope.function?] at h
      | function other =>
        simp only [Scope.function?, Option.toList_some, List.cons.injEq] at h
        exact h.2
    rw [hlast]
    simp [streamBehind, isFunctionBlock, hkind, Scope.function?]

/-- The open functions stay the one whose stream the code goes to. -/
theorem Begins.nested (h : Begins number state said begun)
    (hnested : state.blocks.filterMap Block.function? = state.current.function?.toList) :
    begun.blocks.filterMap Block.function? = begun.current.function?.toList := by
  cases h with
  | stays _ => exact hnested
  | declares _ => exact hnested
  | branches _ kind => rw [List.filterMap_cons_none (by simp [Block.function?, kind]), hnested]
  | loops _ kind => rw [List.filterMap_cons_none (by simp [Block.function?, kind]), hnested]
  | otherwise opened kind =>
    rw [opened, List.filterMap_cons_none (by simp [Block.function?, kind])] at hnested
    rw [List.filterMap_cons_none (by simp [Block.function?]), hnested]
  | closes opened =>
    rw [opened] at hnested
    exact function?_streamBehind hnested
  | @defines name block global kind _ =>
    have hfunction : block.function? = some state.functions.length := by
      simp [Block.function?, kind]
    rw [global] at hnested
    rw [List.filterMap_cons_some hfunction, hnested]
    rfl

/-- What is known behind a line is known to the compiler. -/
theorem Begins.tracks {outline : Outline} (h : Begins (line + 1) state said begun)
    (ht : Tracks outline state) : Tracks (outline.advance line said) begun := by
  cases h with
  | stays plain =>
    rw [plain]
    exact ht
  | declares declares => exact ht.declares declares
  | branches number kind => exact ht.push (by simp [Block.opener, kind]) number
  | loops number kind => exact ht.push (by simp [Block.opener, kind]) number
  | otherwise opened kind => exact ht.otherwise opened kind
  | closes opened => exact ht.pop opened
  | defines global kind number => exact ht.define kind number

end Build

/-- What reading a line does to the state of the compiler. -/
theorem Session.Reads.begins {number : Nat} {said : Option Statement} {before after : Session}
    (h : Session.Reads number said before after) :
    ∃ begun, Build.Begins number before.state said begun ∧ Continues begun after.state := by
  obtain ⟨state, items, htells, -, hstate⟩ := h.tells
  obtain ⟨begun, hbegins, hc⟩ := htells.begins
  refine ⟨begun, hbegins, ?_⟩
  have hsame := hc.same.trans (Storage.same_endStatement htells.ranged.tidy)
  generalize (Storage.endStatement.run state.storage).state = storage at hstate hsame
  rw [hstate]
  exact ⟨hc.labels, hc.functions, hc.current, hc.blocks, hsame⟩

namespace Trace

variable {program : Program} (trace : Trace program) {line later : Nat}

theorem begins {said : Option Statement} (h : program[line]? = some said) :
    ∃ begun, Build.Begins (line + 1) (trace.state line) said begun ∧
      Continues begun (trace.state (line + 1)) :=
  (trace.reads h).begins

theorem tracks (h : line ≤ program.length) : Tracks (program.outline line) (trace.state line) := by
  induction line with
  | zero =>
    rw [trace.state_zero]
    exact ⟨rfl, rfl, rfl, rfl⟩
  | succ line ih =>
    have hsaid : program[line]? = some program[line] := List.getElem?_eq_getElem h
    obtain ⟨begun, hbegins, hc⟩ := trace.begins hsaid
    unfold Program.outline
    rw [hsaid]
    exact (hbegins.tracks (ih (Nat.le_of_lt h))).continues hc

theorem labels_grow (hle : line ≤ later) (hlater : later ≤ program.length) :
    (trace.state line).labels.Grows (trace.state later).labels := by
  induction hle with
  | refl => exact .refl _
  | step _ ih =>
    obtain ⟨begun, hbegins, hc⟩ := trace.begins (List.getElem?_eq_getElem hlater)
    have hgrows := hc.labels
    rw [hbegins.labels] at hgrows
    exact (ih (Nat.le_of_lt hlater)).trans hgrows

theorem counts_grow (hle : line ≤ later) (hlater : later ≤ program.length) :
    (trace.state line).functions.length ≤ (trace.state later).functions.length ∧
      (trace.state line).storage.vars.length ≤ (trace.state later).storage.vars.length := by
  induction hle with
  | refl => exact ⟨Nat.le_refl _, Nat.le_refl _⟩
  | @step k _ ih =>
    obtain ⟨hfunctions, hvars⟩ := ih (Nat.le_of_lt hlater)
    obtain ⟨said, hsaid⟩ : ∃ said, program[k]? = some said :=
      ⟨_, List.getElem?_eq_getElem hlater⟩
    obtain ⟨begun, hbegins, hc⟩ := trace.begins hsaid
    rw [Nat.succ_eq_add_one, hc.functions, hc.same.length_eq]
    refine ⟨Nat.le_trans hfunctions hbegins.functions_le, Nat.le_trans hvars hbegins.vars_le⟩

/-! ## Streams and blocks -/

/-- A function is open exactly when code goes to its stream. -/
theorem nested (h : line ≤ program.length) :
    (trace.state line).blocks.filterMap Block.function? =
      (trace.state line).current.function?.toList := by
  induction line with
  | zero =>
    rw [trace.state_zero]
    rfl
  | succ line ih =>
    obtain ⟨begun, hbegins, hc⟩ := trace.begins (List.getElem?_eq_getElem h)
    rw [hc.blocks, hc.current]
    exact hbegins.nested (ih (Nat.le_of_lt h))

/-- Where an open block comes from: the line that opened it, and what the block was then. -/
structure Opened (line : Nat) (block : Block) (start : Nat) (first : Block) : Prop where
  before : start < line
  number : block.line = start + 1
  head : (trace.state (start + 1)).blocks.head? = some first
  became : first.Became block
  otherwise : ∀ label, block.kind = .branch label true → ∃ turn < line,
    program[turn]? = some (some .otherwise) ∧
      (program.outline turn).blocks.head?.map Prod.snd = some start

variable {trace} in
theorem Opened.mono {block first : Block} {start : Nat} (h : trace.Opened line block start first)
    (hle : line ≤ later) : trace.Opened later block start first where
  before := Nat.lt_of_lt_of_le h.before hle
  number := h.number
  head := h.head
  became := h.became
  otherwise label hkind := by
    obtain ⟨turn, hturn, hsaid, hhead⟩ := h.otherwise label hkind
    exact ⟨turn, Nat.lt_of_lt_of_le hturn hle, hsaid, hhead⟩

variable {trace} in
/-- A branch that has no `else` yet is as it was opened. -/
theorem Opened.eq_first {block first : Block} {start : Nat} {label : LabelId}
    (h : trace.Opened line block start first) (hkind : block.kind = .branch label false) :
    block = first := by
  rcases h.became with hsame | ⟨_, -, hbecame⟩
  · exact hsame
  · rw [hbecame] at hkind
    cases hkind

theorem opened (h : line ≤ program.length) {block : Block}
    (hblock : block ∈ (trace.state line).blocks) :
    ∃ start first, trace.Opened line block start first := by
  induction line generalizing block with
  | zero =>
    rw [trace.state_zero] at hblock
    cases hblock
  | succ line ih =>
    have hle := Nat.le_of_lt h
    obtain ⟨said, hsaid⟩ : ∃ said, program[line]? = some said := ⟨_, List.getElem?_eq_getElem h⟩
    obtain ⟨begun, hbegins, hc⟩ := trace.begins hsaid
    rw [hc.blocks] at hblock
    rcases hbegins.block_of_mem hblock with
      hold | ⟨hhead, hline, hkind⟩ | ⟨was, outer, label, rfl, hblocks, hkind, rfl⟩
    · obtain ⟨start, first, hopened⟩ := ih hle hold
      exact ⟨start, first, hopened.mono (Nat.le_succ line)⟩
    · exact ⟨line, block, Nat.lt_succ_self line, hline, by rw [hc.blocks, hhead], .inl rfl,
        fun label hlabel => absurd hlabel (hkind label)⟩
    · obtain ⟨start, first, hwas⟩ := ih hle (show was ∈ _ by simp [hblocks])
      obtain rfl := hwas.eq_first hkind
      refine ⟨start, was, Nat.lt_succ_of_lt hwas.before, hwas.number, hwas.head,
        .inr ⟨label, hkind, rfl⟩, fun _ _ => ⟨line, Nat.lt_succ_self line, hsaid, ?_⟩⟩
      rw [(trace.tracks hle).blocks, hblocks]
      simp [hwas.number]

theorem founded (h : line ≤ program.length) {index : Nat} {function : Function}
    (hfunction : (trace.state line).functions[index]? = some function) :
    ∃ start < line, program[start]? = some (some (.function function.name)) ∧
      (program.outline line).functions[index]? = some (function.name, start) ∧
      (trace.state start).functions.length = index ∧
      (trace.state (start + 1)).functions[index]? = some function := by
  induction line with
  | zero =>
    rw [trace.state_zero] at hfunction
    cases hfunction
  | succ line ih =>
    have hle := Nat.le_of_lt h
    obtain ⟨said, hsaid⟩ : ∃ said, program[line]? = some said := ⟨_, List.getElem?_eq_getElem h⟩
    obtain ⟨begun, hbegins, hc⟩ := trace.begins hsaid
    have houtline : program.outline (line + 1) = (program.outline line).advance line said := by
      rw [Program.outline, hsaid]
      rfl
    -- A function that was known already.
    have hold : ∀ more, (program.outline (line + 1)).functions =
        (program.outline line).functions ++ more →
        (trace.state line).functions[index]? = some function →
        ∃ start < line + 1, program[start]? = some (some (.function function.name)) ∧
          (program.outline (line + 1)).functions[index]? = some (function.name, start) ∧
          (trace.state start).functions.length = index ∧
          (trace.state (start + 1)).functions[index]? = some function := by
      intro more hmore hknown
      obtain ⟨start, hstart, hdefined, hname, hlength, hfirst⟩ := ih hle hknown
      refine ⟨start, Nat.lt_succ_of_lt hstart, hdefined, ?_, hlength, hfirst⟩
      rw [hmore, List.getElem?_append_left (List.getElem?_eq_some_iff.1 hname).1]
      exact hname
    have hadded := hc.functions
    rw [hadded] at hfunction
    rw [houtline] at hold ⊢
    rcases hbegins.functions_eq (program.outline line) line with
      ⟨hsame, hstate⟩ | ⟨name, main, rfl, hmore, hstate⟩
    · rw [hstate] at hfunction
      exact hold [] (by rw [hsame, List.append_nil]) hfunction
    · rw [hstate] at hadded hfunction
      rcases Nat.lt_or_ge index (trace.state line).functions.length with hlt | hge
      · rw [List.getElem?_append_left hlt] at hfunction
        exact hold _ hmore hfunction
      · -- The function is the last one, so the line defines it.
        have hindex : index = (trace.state line).functions.length := by
          have hbound := (List.getElem?_eq_some_iff.1 hfunction).1
          simp only [List.length_append, List.length_singleton] at hbound
          omega
        subst hindex
        obtain rfl : function = ⟨name, main⟩ := by simpa using hfunction.symm
        refine ⟨line, Nat.lt_succ_self line, hsaid, ?_, rfl, ?_⟩
        · rw [hmore, ← (trace.tracks hle).length_functions, List.getElem?_concat_length]
        · rw [hadded]
          exact List.getElem?_concat_length

end Trace

end ByteBasic
