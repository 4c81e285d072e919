import ByteBasic.Compiler.Session
import ByteBasic.Proofs.Code.Renumbering
import ByteBasic.Proofs.Compiler.Parts

/-!
# Line numbers are only carried along

What the compiler does never depends on the number of a line. Under a change `f` of line numbers,
`Build.Carries f` says of two steps that the second, from the renumbered state, leads to the renumbered
outcome of the first: the same result, the renumbered state and the renumbered output. It is closed
under composition, so it holds of every part of a statement, each at its line and at the line that `f`
makes of it.

**Theorem (`carries_line`).** A line of the source, taken as another line, is compiled as it is, but for
the line numbers put out.
-/

namespace ByteBasic

variable {α β : Type} (f : Nat → Nat)

/-! ## Renumbering -/

def Block.renumber (block : Block) : Block :=
  { block with line := f block.line }

/-- The state as if it had been reached through other lines. -/
def BuildState.renumber (state : BuildState) : BuildState :=
  { state with
    blocks := state.blocks.map (Block.renumber f)
    lastDeclaration := state.lastDeclaration.map f }

def Emission.renumber (emission : Emission) : Emission :=
  { emission with state := emission.state.renumber f, item := emission.item.renumber f }

def BuildEvent.renumber : BuildEvent → BuildEvent
  | .code emission => .code (emission.renumber f)
  | .note n => .note n

/-- The outcome as if it came from other lines. -/
def Outcome.renumber (outcome : Outcome CompileError BuildState BuildEvent α) :
    Outcome CompileError BuildState BuildEvent α :=
  ⟨outcome.result, outcome.state.renumber f, outcome.output.map (BuildEvent.renumber f)⟩

namespace Build

/-- From the renumbered state, the second step does what the first does but for line numbers. -/
def Carries (action action' : Build α) : Prop :=
  ∀ state, action'.run (state.renumber f) = (action.run state).renumber f

/-! ## Steps -/

variable {f}

theorem Carries.bind {action action' : Build α} {next next' : α → Build β}
    (h : Carries f action action') (hnext : ∀ a, Carries f (next a) (next' a)) :
    Carries f (action >>= next) (action' >>= next') := by
  intro state
  rw [Action.run_bind, Action.run_bind, h]
  rcases action.run state with ⟨_ | a, middle, output⟩
  · rfl
  · simp only [Outcome.renumber, Outcome.andThen_ok, hnext a middle, List.map_append]

theorem Carries.get {next next' : BuildState → Build β}
    (h : ∀ state, Carries f (next state) (next' (state.renumber f))) :
    Carries f (Action.get >>= next) (Action.get >>= next') := by
  intro state
  simp only [Action.run_bind, Action.run_get, Outcome.andThen_ok_nil]
  exact h state state

theorem Carries.pure (a : α) : Carries f (pure a) (pure a) :=
  fun _ => rfl

theorem Carries.fail (error : CompileError) :
    Carries f (Action.fail error : Build α) (Action.fail error) :=
  fun _ => rfl

theorem Carries.ofExcept (result : Except CompileError α) :
    Carries f (Action.ofExcept result) (Action.ofExcept result) :=
  fun _ => rfl

theorem Carries.modify_last {change change' : BuildState → BuildState}
    (h : ∀ state, change' (state.renumber f) = (change state).renumber f) :
    Carries f (Action.modify change) (Action.modify change') := by
  intro state
  rw [Action.run_modify, Action.run_modify, h]
  rfl

theorem Carries.modify {change change' : BuildState → BuildState} {next next' : Build β}
    (h : ∀ state, change' (state.renumber f) = (change state).renumber f)
    (hnext : Carries f next next') :
    Carries f (Action.modify change >>= fun _ => next) (Action.modify change' >>= fun _ => next') :=
  (Carries.modify_last h).bind fun _ => hnext

theorem Carries.ite {condition : Prop} [Decidable condition] {yes yes' no no' : Build α}
    (hyes : Carries f yes yes') (hno : Carries f no no') :
    Carries f (if condition then yes else no) (if condition then yes' else no') := by
  split
  · exact hyes
  · exact hno

theorem carries_emit (item : Item) : Carries f (emit item) (emit (item.renumber f)) := by
  intro state
  simp only [emit, Action.run, Item.size_renumber]
  rfl

theorem carries_emitAll (items : List Item) :
    Carries f (emitAll items) (emitAll (items.map (Item.renumber f))) := by
  induction items with
  | nil => exact .pure _
  | cons item items ih => exact (carries_emit item).bind fun _ => ih

theorem carries_instruct (i : Instruction) : Carries f (instruct i) (instruct i) :=
  carries_emit _

theorem carries_storing (operation : StorageM α) :
    Carries f (storing operation) (storing operation) := by
  intro state
  have houtput : ∀ events : List StorageEvent, events.map (ofStorageEvent (state.renumber f)) =
      (events.map (ofStorageEvent state)).map (BuildEvent.renumber f) := by
    intro events
    rw [List.map_map]
    refine List.map_congr_left fun event _ => ?_
    cases event <;> rfl
  simp only [storing, Action.run, Outcome.renumber, ← houtput]
  rfl

theorem carries_flush : Carries f flush flush :=
  carries_storing _

theorem carries_namedLabel (name : String) : Carries f (namedLabel name) (namedLabel name) :=
  .get fun _ => .modify (fun _ => rfl) (.pure _)

theorem carries_blockName (keyword : String) : Carries f (blockName keyword) (blockName keyword) :=
  .get fun _ => .modify (fun _ => rfl) (.pure _)

theorem carries_openBlock (block : Block) (line : Nat) :
    Carries f (openBlock block line) (openBlock (block.renumber f) (f line)) :=
  (carries_emit _).bind fun _ => .modify_last fun _ => rfl

/-! ## Parts of a statement -/

/-- Parts that put out neither jumps nor labels have no line of their own. -/
theorem closed_carries : Closed fun action => Carries f action action where
  pure := .pure
  fail error _ := .fail error
  bind := .bind
  storing := carries_storing
  instruct := carries_instruct
  referent _ := .get fun _ => .ofExcept _
  registerOf _ := .get fun _ => .pure _

theorem carries_compare (condition : Condition) (accept reject : Target) (line : Nat) :
    Carries f (compare condition accept reject line) (compare condition accept reject (f line)) := by
  refine (closed_carries.referent _).bind fun left => (closed_carries.referent _).bind fun right =>
    .ite (.fail _) ?_
  refine (closed_carries.forM closed_carries.reserveNamed).bind fun _ =>
    (closed_carries.leftRegister _ _).bind fun first =>
      (closed_carries.rightRegister _ _).bind fun second => ?_
  exact .ite (carries_emit _)
    (.ite (carries_emit _) ((carries_instruct _).bind fun _ => carries_emit _))

theorem carries_callFunction (name : String) (arguments : List Operand) (line : Nat) :
    Carries f (callFunction name arguments line) (callFunction name arguments (f line)) := by
  refine .get fun state => ?_
  have hfunction : function? (state.renumber f) name = function? state name := rfl
  rw [hfunction]
  cases function? state name with
  | none => exact .fail _
  | some function => exact .ite (carries_flush.bind fun _ => carries_emit _) (.fail _)

theorem carries_call (name : String) (arguments : List Operand) (line : Nat) :
    Carries f (call name arguments line) (call name arguments (f line)) := by
  unfold call
  split
  · exact closed_carries.callBuiltin _ _
  · exact carries_callFunction _ _ _

/-! ## Statements -/

theorem carries_declare (name : String) (value : Option Operand) (line : Nat) :
    Carries f (declare name value line) (declare name value (f line)) := by
  refine .get fun state => ?_
  have hfind : (state.renumber f).storage.find? name (state.renumber f).current =
    state.storage.find? name state.current := rfl
  rw [hfind]
  rcases state.storage.find? name state.current with _ | id
  · refine (carries_storing _).bind fun id => .modify (fun _ => rfl) ?_
    split
    · exact closed_carries.assign _ _
    · exact .modify_last fun _ => rfl
  · cases value with
    | none => exact .fail _
    | some value => exact .ite (.modify (fun _ => rfl) (closed_carries.assign _ _)) (.fail _)

/-- An `else` is allowed or not whatever the lines. -/
theorem openElse_renumber (block : Block) (line : Nat) :
    (block.renumber f).openElse (f line) =
      (block.openElse line).map fun (block, items) =>
        (block.renumber f, items.map (Item.renumber f)) := by
  obtain ⟨kind, main, after, start⟩ := block
  rcases kind with ⟨otherwise, _ | _⟩ | check | id <;> rfl

theorem carries_openElse (line : Nat) : Carries f (openElse line) (openElse (f line)) := by
  refine carries_flush.bind fun _ => .get fun state => ?_
  have hblocks : (state.renumber f).blocks = state.blocks.map (Block.renumber f) := rfl
  rw [hblocks]
  cases state.blocks with
  | nil => exact .fail _
  | cons block outer =>
    simp only [List.map_cons, openElse_renumber]
    rcases block.openElse line with error | ⟨opened, items⟩
    · exact .fail _
    · exact .modify (fun _ => rfl) (carries_emitAll items)

theorem close_renumber (block : Block) (line : Nat) :
    (block.renumber f).close (f line) = (block.close line).map (Item.renumber f) := by
  obtain ⟨kind, main, after, start⟩ := block
  rcases kind with ⟨otherwise, _ | _⟩ | check | id <;> rfl

theorem carries_closeBlock (line : Nat) : Carries f (closeBlock line) (closeBlock (f line)) := by
  refine carries_flush.bind fun _ => .get fun state => ?_
  have hblocks : (state.renumber f).blocks = state.blocks.map (Block.renumber f) := rfl
  rw [hblocks]
  cases state.blocks with
  | nil => exact .fail _
  | cons block outer =>
    simp only [List.map_cons, close_renumber]
    have hfunction : isFunctionBlock (block.renumber f) = isFunctionBlock block := rfl
    rw [hfunction]
    refine .modify (fun _ => rfl) ((carries_emitAll _).bind fun _ => ?_)
    exact .ite (.modify_last fun _ => rfl) (.pure _)

theorem carries_openBranch (condition : Condition) (line : Nat) :
    Carries f (openBranch condition line) (openBranch condition (f line)) :=
  carries_flush.bind fun _ => (carries_blockName _).bind fun _ => .get fun _ =>
    .modify (fun _ => rfl) ((carries_compare _ _ _ _).bind fun _ => carries_openBlock _ _)

theorem carries_openLoop (condition : Condition) (line : Nat) :
    Carries f (openLoop condition line) (openLoop condition (f line)) :=
  carries_flush.bind fun _ => (carries_blockName _).bind fun _ => .get fun _ =>
    .modify (fun _ => rfl) ((carries_emit _).bind fun _ =>
      (carries_compare _ _ _ _).bind fun _ => carries_openBlock _ _)

theorem carries_defineFunction (name : String) (line : Nat) :
    Carries f (defineFunction name line) (defineFunction name (f line)) := by
  refine .get fun state => .ite (.fail _) (.ite (.fail _) (.ite (.fail _) ?_))
  exact carries_flush.bind fun _ => .get fun _ => .modify (fun _ => rfl) (carries_openBlock _ _)

theorem carries_returnToCaller : Carries f returnToCaller returnToCaller :=
  .get fun _ => .ite (.fail _) (carries_flush.bind fun _ => carries_emit _)

theorem carries_statement (statement : Statement) (line : Nat) :
    Carries f (Build.statement statement line) (Build.statement statement (f line)) := by
  cases statement with
  | declare name value => exact carries_declare name value line
  | assign dest update => exact (closed_carries.referent _).bind fun _ => closed_carries.assign _ _
  | ifGoto condition label =>
    exact carries_flush.bind fun _ => (carries_namedLabel _).bind fun _ => carries_compare _ _ _ _
  | ifBlock condition => exact carries_openBranch condition line
  | loop condition => exact carries_openLoop condition line
  | otherwise => exact carries_openElse line
  | close => exact carries_closeBlock line
  | function name => exact carries_defineFunction name line
  | ret => exact carries_returnToCaller
  | goto label =>
    exact carries_flush.bind fun _ => (carries_namedLabel _).bind fun _ => carries_emit _
  | label label =>
    exact carries_flush.bind fun _ => (carries_namedLabel _).bind fun _ => carries_emit _
  | halt => exact carries_emit _
  | exit code =>
    exact (carries_instruct _).bind fun _ => (carries_instruct _).bind fun _ => carries_emit _
  | call name arguments => exact carries_call name arguments line

/-- A line compiled as another one does the same, but for the line numbers put out. -/
theorem carries_line (text : String) (number : Nat) :
    Carries f (Build.line text number) (Build.line text (f number)) := by
  unfold Build.line
  split
  · exact .fail _
  · exact .pure _
  · exact carries_statement _ _

end Build

end ByteBasic
