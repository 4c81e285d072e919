import ByteBasic.Proofs.Compiler.Blocks
import ByteBasic.Proofs.Compiler.Parts

/-!
# Streams and blocks in the middle of a line

The open stream and the stack of blocks are two parts of the state that a line changes one after the
other, so an item may be put out between the two changes. `Build.Still` says of a step that it changes
neither, and puts out all its items where both are as they were; that is so for all parts of a
statement. `Build.Shown` says what the open stream and the blocks are wherever a step puts out an item.

**Theorem (`shown_line`).** Wherever a line puts out an item, the open stream is that of the one open
function (`Tallies`), if the block that the line is opening or closing counts as open (`Pending`): the
label of a function is put out before its block is on the stack, and the items of its `end` after it
was taken off.
-/

namespace ByteBasic

/-- The open stream is that of the one function among the blocks, if there is one. -/
structure Tallies (current : Scope) (blocks : List Block) : Prop where
  function_iff : ∀ id, current = .function id ↔ ∃ block ∈ blocks, block.kind = .function id
  one : (blocks.filter Build.isFunctionBlock).length ≤ 1

/-- The blocks, none or one, that a line is in the middle of opening or closing, among blocks that
were open before it. -/
inductive Pending (number : Nat) (statement : Statement) (blocks : List Block) : List Block → Prop
  | none : Pending number statement blocks []
  | opening {name : String} {block : Block} : statement = .function name → block.line = number →
      Pending number statement blocks [block]
  | closing {block : Block} {outer : List Block} : statement = .close → blocks = block :: outer →
      Pending number statement blocks [block]

theorem not_isFunctionBlock {block : Block} (h : ∀ id, block.kind ≠ .function id) :
    Build.isFunctionBlock block = false := by
  unfold Build.isFunctionBlock
  cases hkind : block.kind with
  | function id => exact absurd hkind (h id)
  | branch _ _ => rfl
  | loop _ => rfl

namespace Tallies

variable {current : Scope} {blocks : List Block} {block other : Block}

/-- A block that is not a function's counts for nothing. -/
theorem replace (h : Tallies current (block :: blocks)) (hblock : ∀ id, block.kind ≠ .function id)
    (hother : ∀ id, other.kind ≠ .function id) : Tallies current (other :: blocks) where
  function_iff id := by
    rw [h.function_iff id]
    simp [hblock id, hother id]
  one := by
    have hone := h.one
    rw [List.filter_cons_of_neg (by simp [not_isFunctionBlock hblock])] at hone
    rwa [List.filter_cons_of_neg (by simp [not_isFunctionBlock hother])]

theorem opened (h : Tallies .global blocks) {id : FunctionId} (hblock : block.kind = .function id) :
    Tallies (.function id) (block :: blocks) where
  function_iff other := by
    have hnone : ¬ ∃ block ∈ blocks, block.kind = .function other := by
      rw [← h.function_iff other]
      exact fun hno => by cases hno
    simp [hblock, hnone]
  one := by
    have hnone : blocks.filter Build.isFunctionBlock = [] := by
      refine List.filter_eq_nil_iff.2 fun block hmem hfunction => ?_
      unfold Build.isFunctionBlock at hfunction
      split at hfunction
      · next own hkind => exact absurd ((h.function_iff own).2 ⟨block, hmem, hkind⟩) fun hno => by cases hno
      · cases hfunction
    rw [List.filter_cons, hnone]
    split <;> simp

end Tallies

/-- The open stream and the open blocks. -/
def BuildState.standing (state : BuildState) : Scope × List Block :=
  (state.current, state.blocks)

namespace Build

variable {α β : Type} {state : BuildState} {seen : Scope × List Block → Prop}

/-! ## Steps that change neither -/

/-- A step leaves the open stream and the blocks, and puts out all its items there. -/
def Still (action : Build α) : Prop :=
  ∀ state, (action.run state).state.standing = state.standing ∧
    ∀ emission, .code emission ∈ (action.run state).output →
      emission.state.standing = state.standing

theorem Still.bind {action : Build α} {next : α → Build β} (h : Still action)
    (hnext : ∀ a, Still (next a)) : Still (action >>= next) := by
  intro state
  obtain ⟨hstanding, hout⟩ := h state
  rw [Action.run_bind]
  rcases hrun : action.run state with ⟨_ | a, middle, output⟩
  · rw [hrun] at hstanding hout
    exact ⟨hstanding, hout⟩
  · rw [hrun] at hstanding hout
    obtain ⟨hstanding', hout'⟩ := hnext a middle
    rw [hstanding] at hstanding' hout'
    rw [Outcome.andThen_ok]
    refine ⟨hstanding', fun emission hmem => ?_⟩
    exact (List.mem_append.1 hmem).elim (hout emission) (hout' emission)

theorem Still.get {next : BuildState → Build β} (h : ∀ state, Still (next state)) :
    Still (Action.get >>= next) := by
  intro state
  rw [Action.run_bind, Action.run_get, Outcome.andThen_ok_nil]
  exact h state state

theorem still_modify {change : BuildState → BuildState}
    (hcurrent : ∀ state, (change state).current = state.current)
    (hblocks : ∀ state, (change state).blocks = state.blocks) : Still (Action.modify change) :=
  fun state => ⟨Prod.ext (hcurrent state) (hblocks state), fun _ h => (by cases h)⟩

theorem still_emit (item : Item) : Still (emit item) := by
  refine fun state => ⟨rfl, fun emission hmem => ?_⟩
  have hcode : BuildEvent.code emission ∈ [BuildEvent.code ⟨state, item, .statement⟩] := hmem
  obtain rfl : emission = ⟨state, item, .statement⟩ := by simpa using hcode
  rfl

theorem still_storing (operation : StorageM α) : Still (storing operation) := by
  refine fun state => ⟨rfl, fun emission hmem => ?_⟩
  obtain ⟨event, -, hevent⟩ := List.mem_map.1 hmem
  cases event with
  | note n => cases hevent
  | code i =>
    cases hevent
    rfl

theorem level_still : Level Still where
  pure _ _ := ⟨rfl, fun _ h => (by cases h)⟩
  fail _ _ _ := ⟨rfl, fun _ h => (by cases h)⟩
  bind := .bind
  storing := still_storing
  instruct _ := still_emit _
  referent _ _ := ⟨rfl, fun _ h => (by cases h)⟩
  registerOf _ _ := ⟨rfl, fun _ h => (by cases h)⟩
  get := .get
  emit := still_emit
  adjust hcurrent hblocks _ := still_modify hcurrent hblocks

/-! ## What a step shows -/

/-- Wherever a step puts out an item, something holds of the open stream and the open blocks. -/
def Shown (action : Build α) (state : BuildState) (seen : Scope × List Block → Prop) : Prop :=
  ∀ emission, .code emission ∈ (action.run state).output → seen emission.state.standing

theorem Still.shown {action : Build α} (h : Still action) (hseen : seen state.standing) :
    Shown action state seen := by
  intro emission hmem
  rw [(h state).2 emission hmem]
  exact hseen

theorem shown_of_silent {action : Build α} (h : (action.run state).output = []) :
    Shown action state seen := by
  intro emission hmem
  rw [h] at hmem
  cases hmem

/-- A step that changes neither the stream nor the blocks, and what comes after it. -/
theorem Still.andThen {action : Build α} {next : α → Build β} (h : Still action)
    (hseen : seen state.standing)
    (hnext : ∀ a s, s.standing = state.standing → Shown (next a) s seen) :
    Shown (action >>= next) state seen := by
  have hfirst : Shown action state seen := h.shown hseen
  have hstanding := (h state).1
  unfold Shown at hfirst ⊢
  rw [Action.run_bind]
  rcases hrun : action.run state with ⟨_ | a, middle, output⟩
  · rw [hrun] at hfirst
    exact hfirst
  · rw [hrun] at hstanding hfirst
    rw [Outcome.andThen_ok]
    exact fun emission hmem => (List.mem_append.1 hmem).elim (hfirst emission)
      (hnext a middle hstanding emission)

theorem Shown.get {next : BuildState → Build α} (h : Shown (next state) state seen) :
    Shown (Action.get >>= next) state seen := by
  unfold Shown
  rw [Action.run_bind, Action.run_get, Outcome.andThen_ok_nil]
  exact h

theorem Shown.modify {change : BuildState → BuildState} {next : Unit → Build α}
    (h : Shown (next ()) (change state) seen) : Shown (Action.modify change >>= next) state seen := by
  unfold Shown
  rw [Action.run_bind, Action.run_modify, Outcome.andThen_ok_nil]
  exact h

/-- The label of a block is put out before the block is on the stack. -/
theorem shown_openBlock {block : Block} {line : Nat} (hseen : seen state.standing) :
    Shown (openBlock block line) state seen :=
  (still_emit _).andThen hseen fun _ _ _ => shown_of_silent rfl

/-! ## Statements -/

variable {number : Nat}

theorem shown_condition {condition : Condition} {accept reject : Target} {block : Block}
    (hseen : seen state.standing) :
    Shown (do compare condition accept reject number; openBlock block number) state seen :=
  (level_still.compare _ _ _ _).andThen hseen fun _ _ hs => shown_openBlock (hs ▸ hseen)

theorem shown_openBranch (condition : Condition) (hseen : seen state.standing) :
    Shown (openBranch condition number) state seen := by
  refine level_still.flush.andThen hseen fun _ s hs => ?_
  rw [← hs] at hseen
  refine (level_still.blockName _).andThen hseen fun name s hs => .get (.modify ?_)
  rw [← hs] at hseen
  exact shown_condition hseen

theorem shown_openLoop (condition : Condition) (hseen : seen state.standing) :
    Shown (openLoop condition number) state seen := by
  refine level_still.flush.andThen hseen fun _ s hs => ?_
  rw [← hs] at hseen
  refine (level_still.blockName _).andThen hseen fun name s hs => .get (.modify ?_)
  rw [← hs] at hseen
  refine (still_emit _).andThen hseen fun _ s hs => ?_
  exact shown_condition (hs ▸ hseen)

/-- The items of an `else` are put out when its block is known to have one. -/
theorem shown_openElse (h : Tallies state.current state.blocks) :
    Shown (openElse number) state fun standing => Tallies standing.1 standing.2 := by
  refine level_still.flush.andThen h fun _ s hs => .get ?_
  have hs' : Tallies s.standing.1 s.standing.2 := hs ▸ h
  unfold BuildState.standing at hs'
  rcases hblocks : s.blocks with _ | ⟨block, outer⟩
  · exact shown_of_silent rfl
  · rw [hblocks] at hs'
    dsimp only
    rcases hopen : block.openElse number with error | ⟨opened, items⟩
    · exact shown_of_silent rfl
    · obtain ⟨otherwise, hkind, rfl, -⟩ := Block.openElse_eq_ok hopen
      refine .modify ((level_still.forM still_emit).shown ?_)
      exact hs'.replace (fun id hid => by rw [hkind] at hid; cases hid) fun id hid => by cases hid

/-- The items of an `end` are put out when its block is off the stack, in the stream of the block. -/
theorem shown_closeBlock (h : Tallies state.current state.blocks) :
    Shown (closeBlock number) state fun standing => ∃ pending,
      Pending number .close state.blocks pending ∧ Tallies standing.1 (pending ++ standing.2) := by
  refine level_still.flush.andThen ⟨[], .none, h⟩ fun _ s hs => .get ?_
  have hs' : Tallies s.standing.1 s.standing.2 := hs ▸ h
  have hsame : s.blocks = state.blocks := congrArg Prod.snd hs
  unfold BuildState.standing at hs'
  rcases hblocks : s.blocks with _ | ⟨block, outer⟩
  · exact shown_of_silent rfl
  · rw [hblocks] at hs' hsame
    refine .modify ((level_still.forM still_emit).andThen ⟨[block], .closing rfl hsame.symm, hs'⟩
      fun _ s _ => shown_of_silent ?_)
    split <;> rfl

/-- The label of a function is put out in its own stream, before its block is on the stack. -/
theorem shown_defineFunction (h : Tallies state.current state.blocks) (name : String) :
    Shown (defineFunction name number) state fun standing => ∃ pending,
      Pending number (.function name) state.blocks pending ∧
        Tallies standing.1 (pending ++ standing.2) := by
  refine .get ?_
  split
  · exact shown_of_silent rfl
  next hglobal =>
  split
  · exact shown_of_silent rfl
  split
  · exact shown_of_silent rfl
  have hglobal : state.current = .global := by simpa using hglobal
  refine level_still.flush.andThen ⟨[], .none, h⟩ fun _ s hs => .get (.modify (shown_openBlock ?_))
  have hsame : s.blocks = state.blocks := congrArg Prod.snd hs
  rw [hglobal] at h
  refine ⟨[(Block.newFunction s.labels name s.functions.length number).1], .opening rfl rfl, ?_⟩
  change Tallies (.function s.functions.length) (_ :: s.blocks)
  rw [hsame]
  exact h.opened rfl

/-- Wherever a statement puts out an item, the stream is that of the one open function, if the block
that the statement opens or closes counts as open. -/
theorem shown_statement (h : Tallies state.current state.blocks) (statement : Statement) :
    Shown (Build.statement statement number) state fun standing => ∃ pending,
      Pending number statement state.blocks pending ∧ Tallies standing.1 (pending ++ standing.2) := by
  cases statement with
  | declare name value =>
    exact (level_still.declare still_modify name value number).shown ⟨[], .none, h⟩
  | ifBlock condition => exact shown_openBranch condition ⟨[], .none, h⟩
  | loop condition => exact shown_openLoop condition ⟨[], .none, h⟩
  | otherwise => exact fun emission hmem => ⟨[], .none, shown_openElse h emission hmem⟩
  | close => exact shown_closeBlock h
  | function name => exact shown_defineFunction h name
  | _ => exact (level_still.statement number (by simp) rfl).shown ⟨[], .none, h⟩

/-- A line that puts out anything is a statement. -/
theorem shown_line (h : Tallies state.current state.blocks) (text : String) :
    Shown (line text number) state fun standing => ∃ statement pending,
      Statement.parse text.toList = .ok (some statement) ∧
        Pending number statement state.blocks pending ∧
        Tallies standing.1 (pending ++ standing.2) := by
  unfold line
  split
  · exact shown_of_silent rfl
  · exact shown_of_silent rfl
  · next statement hparse =>
    intro emission hmem
    obtain ⟨pending, hpending, htallies⟩ := shown_statement h statement emission hmem
    exact ⟨statement, pending, hparse, hpending, htallies⟩

end Build

end ByteBasic
