import ByteBasic.Proofs.Compiler.Operands
import ByteBasic.Proofs.Storage.Accesses

/-!
# Compiling with all numbers looked up

The steps of compiling once more, as attempts. A step that puts out code first looks for the stream
that is open (`stream?`), and a step that needs a variable looks for that, even where it only goes on
to read it; a number that leads nowhere ends the attempt without any outcome. What finds its way by
names alone is the step that it was: it is lifted as it stands.

`BuildState.Anchored` says that the owners of registers and the open stream exist. The steps keep that
and forget no variable (`BuildState.Intact`), so what one step has found the next one finds again.

This module has the attempts and the single steps; `Compiler.Finding` has all the others.
-/

namespace ByteBasic

/-- An attempt at a step of compiling. -/
abbrev BuildAttempt := Attempt CompileError BuildState BuildEvent

namespace Build

variable {α : Type}

/-! ## Steps -/

/-- The stream that code goes to exists. -/
def stream? : BuildAttempt Unit :=
  Attempt.look fun state =>
    match state.current with
    | .global => some ()
    | .function id => state.functions[id]?.map fun _ => ()

/-- The variable of a number. -/
def record? (id : VarId) : BuildAttempt Variable :=
  Attempt.look fun state => state.storage.vars[id]?

def emit? (item : Item) : BuildAttempt Unit := do
  stream?
  Attempt.ofAction (emit item)

def instruct? (instruction : Instruction) : BuildAttempt Unit :=
  emit? (.instruction instruction)

def emitAll? (items : List Item) : BuildAttempt Unit := do
  stream?
  items.forM emit?

/-- An operation on the storage that puts out nothing. -/
def storing? (operation : StorageAttempt α) : BuildAttempt α :=
  fun state => do
    let outcome ← operation.run state.storage
    return ⟨outcome.result.mapError .storage,
      { state with
        storage := outcome.state
        codeSize := state.codeSize + storageSize outcome.output },
      outcome.output.map (ofStorageEvent state)⟩

/-- An operation on the storage whose code goes into the current stream. -/
def moving? (operation : StorageAttempt α) : BuildAttempt α := do
  stream?
  storing? operation

def flush? : BuildAttempt Unit :=
  moving? Storage.flush?

def openBlock? (block : Block) (line : Nat) : BuildAttempt Unit := do
  emit? (.label block.main line)
  Attempt.modify fun state => { state with blocks := block :: state.blocks }

/-! ### Assignments -/

def registerOf? (id : VarId) : BuildAttempt (Option Register) := do
  let var ← record? id
  return var.register

def operandRegister? (referent : Referent) : BuildAttempt Register := do
  stream?
  match referent with
  | .variable id => do
    match ← registerOf? id with
    | some register => do
      moving? (Storage.bind? id register true)
      return register
    | none => do
      let register ← moving? (Storage.pick? 1)
      moving? (Storage.load? id register true)
      return register
  | .register register => return register
  | .memory address => do
    let register ← moving? Storage.scratch?
    instruct? (.loadMem register.byte address)
    return register
  | .port address => do
    let register ← moving? Storage.scratch?
    instruct? (.loadPort register.byte address)
    return register
  | .literal value => do
    let register ← moving? Storage.scratch?
    instruct? (.load register.byte value)
    return register

def copyInto? (referent : Referent) (register : Register) : BuildAttempt Unit := do
  stream?
  match referent with
  | .variable id => moving? (Storage.load? id register false)
  | .register source => if source = register then pure () else instruct? (transfer source register)
  | .memory address => instruct? (.loadMem register.byte address)
  | .port address => instruct? (.loadPort register.byte address)
  | .literal value => instruct? (.load register.byte value)

def bindForWrite? (id : VarId) (keep : Bool) : BuildAttempt Register := do
  stream?
  match ← registerOf? id with
  | some register => do
    moving? (Storage.bind? id register true)
    return register
  | none => do
    let register ← moving? (Storage.pick? 1)
    if keep then moving? (Storage.load? id register true)
    else moving? (Storage.bind? id register true)
    return register

def resolve? : Update → BuildAttempt Computation
  | .set source => do
    let source ← Attempt.ofAction (referent source)
    return .set source
  | .combine left op right => do
    let left ← Attempt.ofAction (referent left)
    let right ← Attempt.ofAction (referent right)
    return .combine left op right
  | .compound op source => do
    let source ← Attempt.ofAction (referent source)
    return .compound op source

def reserveNamed? : Referent → BuildAttempt Unit
  | .register register => moving? (Storage.reserve? register)
  | _ => pure ()

def compute? (computation : Computation) (target? : Bool → BuildAttempt Register) :
    BuildAttempt Register :=
  match computation with
  | .set source =>
    if source.isRegistered then do
      let register ← operandRegister? source
      let dest ← target? false
      if register = dest then pure () else instruct? (transfer register dest)
      return dest
    else do
      let dest ← target? false
      copyInto? source dest
      return dest
  | .combine left op right => do
    let a ← operandRegister? left
    let b ← operandRegister? right
    let dest ← target? false
    instruct? (operation op dest a b)
    return dest
  | .compound op source => do
    let b ← operandRegister? source
    let dest ← target? true
    instruct? (operation op dest dest b)
    return dest

def cellTarget? (load : Register → Instruction) (keep : Bool) : BuildAttempt Register := do
  let register ← moving? Storage.scratch?
  if keep then instruct? (load register)
  return register

def computeCell? (computation : Computation) (load : Register → Instruction) :
    BuildAttempt Register :=
  match computation with
  | .set source => operandRegister? source
  | computation => compute? computation (cellTarget? load)

/-- After a variable is assigned to, it is looked up once more for the log. -/
def assign? (dest : Referent) (update : Update) : BuildAttempt Unit := do
  let computation ← resolve? update
  (dest :: computation.operands).forM reserveNamed?
  match dest with
  | .variable id => do
    let _ ← compute? computation (bindForWrite? id)
    storing? (Storage.markModified? id)
    let _ ← record? id
    pure ()
  | .register register => do
    let _ ← compute? computation fun _ => return register
    pure ()
  | .memory address => do
    let register ← computeCell? computation fun register => .loadMem register.byte address
    instruct? (.store register.byte address)
  | .port address => do
    let register ← computeCell? computation fun register => .loadPort register.byte address
    instruct? (.storePort register.byte address)
  | .literal value => Attempt.fail (.assignToLiteral value)

/-! ### Conditions -/

/-- Register zero, which tests are against. -/
def pivot : Register := ⟨0, Nat.zero_lt_succ _⟩

def leftRegister? (left right : Referent) : BuildAttempt Register :=
  match left with
  | .register register => return register
  | _ =>
    if right = .register pivot then do
      let register ← moving? (Storage.pick? 1)
      copyInto? left register
      return register
    else do
      copyInto? left pivot
      return pivot

def rightRegister? (first : Register) (right : Referent) : BuildAttempt Register :=
  match right with
  | .register register => return register
  | _ =>
    if first = pivot then do
      let register ← moving? (Storage.pick? 1)
      copyInto? right register
      return register
    else do
      copyInto? right pivot
      return pivot

def compare? (condition : Condition) (accept reject : Target) (line : Nat) : BuildAttempt Unit := do
  let left ← Attempt.ofAction (referent condition.left)
  let right ← Attempt.ofAction (referent condition.right)
  if left.isLiteral && right.isLiteral then Attempt.fail .literalComparison
  else do
    [left, right].forM reserveNamed?
    let first ← leftRegister? left right
    let second ← rightRegister? first right
    if first = pivot then
      emit? (.compare condition.comparison.swapped second.byte accept reject line)
    else if second = pivot then
      emit? (.compare condition.comparison first.byte accept reject line)
    else do
      instruct? (transfer first pivot)
      emit? (.compare condition.comparison.swapped second.byte accept reject line)

/-! ### Calls -/

def writeText? (bytes : List UInt8) : BuildAttempt Unit :=
  if bytes = [] then Attempt.fail .emptyWrite
  else do
    let register ← moving? Storage.scratch?
    bytes.forM fun byte => do
      instruct? (.load register.byte byte)
      instruct? (.storePort register.byte consolePort)

def writeValue? (operand : Operand) : BuildAttempt Unit := do
  let value ← Attempt.ofAction (referent operand)
  let register ← operandRegister? value
  instruct? (.storePort register.byte consolePort)

def write? (operand : Operand) : BuildAttempt Unit :=
  match operand with
  | .text [byte] => writeValue? (.text [byte])
  | .text bytes => writeText? bytes
  | .word word => writeValue? (.word word)

def rotateAmount? (operand : Operand) : BuildAttempt UInt8 := do
  match ← Attempt.ofAction (referent operand) with
  | .literal amount => if amount < 16 then return amount else Attempt.fail .rotateAmountRange
  | _ => Attempt.fail .rotateAmountRange

def rotate? (target amount : Operand) : BuildAttempt Unit := do
  match ← Attempt.ofAction (referent target) with
  | .variable id => do
    let amount ← rotateAmount? amount
    let register ← bindForWrite? id true
    instruct? (.rotate register.byte amount)
    storing? (Storage.markModified? id)
  | _ => Attempt.fail .rotateNeedsVariable

def pushOperand? (operand : Operand) : BuildAttempt Unit := do
  let value ← Attempt.ofAction (referent operand)
  let register ← operandRegister? value
  instruct? (.move (.general register.byte) (.special .stack))

def popInto? (operand : Operand) : BuildAttempt Unit := do
  match ← Attempt.ofAction (referent operand) with
  | .variable id => do
    let register ← bindForWrite? id false
    storing? (Storage.markModified? id)
    instruct? (.move (.special .stack) (.general register.byte))
  | .register register => do
    moving? (Storage.reserve? register)
    instruct? (.move (.special .stack) (.general register.byte))
  | _ => Attempt.fail .popNeedsDestination

def callBuiltin? (builtin : Builtin) (arguments : List Operand) : BuildAttempt Unit :=
  match builtin, arguments with
  | .write, [operand] => write? operand
  | .rotate, [target, amount] => rotate? target amount
  | .toStack, [operand] => pushOperand? operand
  | .fromStack, [operand] => popInto? operand
  | builtin, arguments =>
    Attempt.fail (.argumentCount builtin.name builtin.arity arguments.length)

def callFunction? (name : String) (arguments : List Operand) (line : Nat) : BuildAttempt Unit := do
  let state ← Attempt.get
  match function? state name with
  | none => Attempt.fail (.unknownFunction name)
  | some function =>
    if arguments = [] then do
      flush?
      emit? (.call function.main line)
    else Attempt.fail (.unexpectedArguments name)

def call? (name : String) (arguments : List Operand) (line : Nat) : BuildAttempt Unit :=
  match Builtin.ofName? name with
  | some builtin => callBuiltin? builtin arguments
  | none => callFunction? name arguments line

def defineFunction? (name : String) (line : Nat) : BuildAttempt Unit := do
  let state ← Attempt.get
  if state.current ≠ .global then Attempt.fail .nestedFunction
  else if (Builtin.ofName? name).isSome then Attempt.fail (.builtinRedefined name)
  else if (function? state name).isSome then Attempt.fail (.functionRedefined name)
  else do
    flush?
    let state ← Attempt.get
    let id := state.functions.length
    let (block, labels) := Block.newFunction state.labels name id line
    Attempt.modify fun state =>
      { state with
        labels := labels
        functions := state.functions ++ [⟨name, block.main⟩]
        current := .function id }
    openBlock? block line

/-! ### Statements -/

def declare? (name : String) (value : Option Operand) (line : Nat) : BuildAttempt Unit := do
  let state ← Attempt.get
  match state.storage.find? name state.current, value with
  | none, value => do
    let id ← Attempt.ofAction (storing (Storage.declare name state.current state.codeSize))
    Attempt.modify fun state => { state with lastDeclaration := some line }
    match value with
    | some value => assign? (.variable id) (.set value)
    | none =>
      Attempt.modify fun state => { state with forwardDeclared := id :: state.forwardDeclared }
  | some _, none => Attempt.fail (.storage (.duplicate name))
  | some id, some value =>
    if id ∈ state.forwardDeclared then do
      Attempt.modify fun state => { state with forwardDeclared := state.forwardDeclared.erase id }
      assign? (.variable id) (.set value)
    else Attempt.fail (.storage (.duplicate name))

def openBranch? (condition : Condition) (line : Nat) : BuildAttempt Unit := do
  flush?
  let name ← Attempt.ofAction (blockName "if")
  let state ← Attempt.get
  let (block, labels) := Block.newBranch state.labels name line
  Attempt.modify fun state => { state with labels := labels }
  compare? condition .next (.label block.rejectLabel) line
  openBlock? block line

def openLoop? (condition : Condition) (line : Nat) : BuildAttempt Unit := do
  flush?
  let name ← Attempt.ofAction (blockName "while")
  let state ← Attempt.get
  let (block, check, labels) := Block.newLoop state.labels name line
  Attempt.modify fun state => { state with labels := labels }
  emit? (.label check line)
  compare? condition .next (.label block.after) line
  openBlock? block line

def openElse? (line : Nat) : BuildAttempt Unit := do
  flush?
  let state ← Attempt.get
  match state.blocks with
  | [] => Attempt.fail .elseWithoutIf
  | block :: outer =>
    match block.openElse line with
    | .error error => Attempt.fail (.misplacedElse error)
    | .ok (block, items) => do
      Attempt.modify fun state => { state with blocks := block :: outer }
      emitAll? items

def closeBlock? (line : Nat) : BuildAttempt Unit := do
  flush?
  let state ← Attempt.get
  match state.blocks with
  | [] => Attempt.fail .endWithoutBlock
  | block :: outer => do
    Attempt.modify fun state => { state with blocks := outer }
    emitAll? (block.close line)
    if isFunctionBlock block then Attempt.modify fun state => { state with current := .global }

def returnToCaller? : BuildAttempt Unit := do
  let state ← Attempt.get
  if state.current = .global then Attempt.fail .returnOutsideFunction
  else do
    flush?
    emit? .ret

def statement? (statement : Statement) (line : Nat) : BuildAttempt Unit :=
  match statement with
  | .declare name value => declare? name value line
  | .assign dest update => do
    let dest ← Attempt.ofAction (referent (.word dest))
    assign? dest update
  | .ifGoto condition label => do
    flush?
    let label ← Attempt.ofAction (namedLabel label)
    compare? condition (.label label) .next line
  | .ifBlock condition => openBranch? condition line
  | .loop condition => openLoop? condition line
  | .otherwise => openElse? line
  | .close => closeBlock? line
  | .function name => defineFunction? name line
  | .ret => returnToCaller?
  | .goto label => do
    flush?
    let label ← Attempt.ofAction (namedLabel label)
    emit? (.goto label line)
  | .label label => do
    flush?
    let label ← Attempt.ofAction (namedLabel label)
    emit? (.label label line)
  | .halt => emit? .halt
  | .exit code => do
    instruct? (.load 0 code)
    instruct? (.move (.general 0) (.special .exitCode))
    emit? .halt
  | .call name arguments => call? name arguments line

def line? (text : String) (number : Nat) : BuildAttempt Unit :=
  match Statement.parse text.toList with
  | .error error => Attempt.fail (.malformed error)
  | .ok none => pure ()
  | .ok (some parsed) => statement? parsed number

end Build

/-! ## Anchored states -/

/-- The owners of registers and the open stream exist. -/
structure BuildState.Anchored (state : BuildState) : Prop where
  owners : state.storage.OwnersExist
  current : ∀ id, state.current = .function id → id < state.functions.length

/-- A later state that is anchored and has all variables of the earlier one. -/
structure BuildState.Intact (before after : BuildState) : Prop where
  anchored : after.Anchored
  vars_le : before.storage.vars.length ≤ after.storage.vars.length

namespace BuildState

variable {state before middle after : BuildState}

theorem Intact.refl (h : state.Anchored) : state.Intact state :=
  ⟨h, Nat.le_refl _⟩

theorem Intact.trans (h₁ : before.Intact middle) (h₂ : middle.Intact after) : before.Intact after :=
  ⟨h₂.anchored, Nat.le_trans h₁.vars_le h₂.vars_le⟩

theorem Intact.lt (h : before.Intact after) {id : VarId} (hid : id < before.storage.vars.length) :
    id < after.storage.vars.length :=
  Nat.lt_of_lt_of_le hid h.vars_le

theorem Intact.inRange (h : before.Intact after) {referent : Referent}
    (hin : referent.InRange before.storage) : referent.InRange after.storage := by
  rcases referent with ⟨id⟩ | _ | _ | _ | _
  · exact h.lt hin
  all_goals trivial

/-- Owners and streams are all that anchors a state. -/
theorem Anchored.of_eq (h : before.Anchored) (hstorage : after.storage = before.storage)
    (hcurrent : after.current = before.current) (hfunctions : after.functions = before.functions) :
    before.Intact after := by
  refine ⟨⟨?_, ?_⟩, Nat.le_of_eq (by rw [hstorage])⟩
  · rw [hstorage]
    exact h.owners
  · rw [hcurrent, hfunctions]
    exact h.current

end BuildState

namespace Build

variable {α : Type} {state : BuildState} {id : VarId} {referent : Referent}

/-! ## Single steps -/

/-- The open stream is there, where the step takes that for granted. -/
theorem follows_stream {next? : Unit → BuildAttempt α} {action : Build α}
    {ok : α → BuildState → Prop} (hstate : state.Anchored) (h : (next? ()).Follows action state ok) :
    (stream? >>= next?).Follows action state ok := by
  refine .look ?_ h
  rcases hcurrent : state.current with _ | id
  · rfl
  · have hlt := hstate.current id hcurrent
    simp [hlt]

theorem follows_variable {next? : Variable → BuildAttempt α} {action : Build α}
    {ok : α → BuildState → Prop} (hid : id < state.storage.vars.length)
    (h : (next? (state.storage.get id)).Follows action state ok) :
    (record? id >>= next?).Follows action state ok :=
  .look (Storage.getElem?_vars hid) h

theorem follows_emit (hstate : state.Anchored) (item : Item) :
    (emit? item).Follows (emit item) state fun _ s => state.Intact s :=
  follows_stream hstate (.ofAction fun _ _ => hstate.of_eq rfl rfl rfl)

theorem follows_emitAfter {before : BuildState} (hs : before.Intact state) (item : Item) :
    (emit? item).Follows (emit item) state fun _ s => before.Intact s :=
  (follows_emit hs.anchored item).imp fun _ _ hs' => hs.trans hs'

theorem follows_instruct (hstate : state.Anchored) (instruction : Instruction) :
    (instruct? instruction).Follows (instruct instruction) state fun _ s => state.Intact s :=
  follows_emit hstate _

theorem follows_emitAll (hstate : state.Anchored) (items : List Item) :
    (emitAll? items).Follows (emitAll items) state fun _ s => state.Intact s :=
  follows_stream hstate <| .forM state.Intact (.refl hstate) fun item _ hs =>
    (follows_emit hs.anchored item).imp fun _ _ hs' => hs.trans hs'

theorem follows_storing (hstate : state.Anchored) {operation? : StorageAttempt α}
    {operation : StorageM α}
    (h : operation?.Follows operation state.storage fun _ s => state.storage.Intact s) :
    (storing? operation?).Follows (storing operation) state fun _ s => state.Intact s := by
  obtain ⟨hrun, hok⟩ := h
  refine ⟨?_, fun a ha => ?_⟩
  · change (operation?.run state.storage).bind _ = _
    rw [hrun]
    rfl
  · rcases houtcome : operation.run state.storage with ⟨_ | b, after, events⟩
    · rw [run_storing houtcome] at ha
      cases ha
    · rw [houtcome] at hok
      rw [run_storing houtcome]
      have hafter := hok b rfl
      exact ⟨⟨hafter.owners, hstate.current⟩, Nat.le_of_eq hafter.length_eq.symm⟩

theorem follows_moving (hstate : state.Anchored) {operation? : StorageAttempt α}
    {operation : StorageM α}
    (h : operation?.Follows operation state.storage fun _ s => state.storage.Intact s) :
    (moving? operation?).Follows (storing operation) state fun _ s => state.Intact s :=
  follows_stream hstate (follows_storing hstate h)

theorem follows_flush (hstate : state.Anchored) :
    flush?.Follows flush state fun _ s => state.Intact s :=
  follows_moving hstate (Storage.follows_flush hstate.owners)

theorem follows_modify {before : BuildState} (hs : before.Intact state)
    {change : BuildState → BuildState} (hstorage : (change state).storage = state.storage)
    (hcurrent : (change state).current = state.current)
    (hfunctions : (change state).functions = state.functions) :
    Attempt.Follows (Attempt.modify change : BuildAttempt Unit) (Action.modify change) state
      fun _ s => before.Intact s :=
  .modify (hs.trans (hs.anchored.of_eq hstorage hcurrent hfunctions))

theorem follows_openBlock (hstate : state.Anchored) (block : Block) (line : Nat) :
    (openBlock? block line).Follows (openBlock block line) state fun _ s => state.Intact s :=
  (follows_emit hstate _).bind fun _ _ hs => follows_modify hs rfl rfl rfl

theorem follows_referent (operand : Operand) :
    (Attempt.ofAction (Build.referent operand)).Follows (Build.referent operand) state
      fun r s => s = state ∧ r.InRange state.storage := by
  refine .ofAction fun r hr => ?_
  have hrun : (Build.referent operand).run state =
      ⟨Referent.ofOperand state.storage state.current operand, state, []⟩ := by
    simp only [Build.referent, Action.run_bind, Action.run_get, Outcome.andThen_ok_nil,
      Action.run_ofExcept]
  rw [hrun] at hr ⊢
  exact ⟨rfl, Referent.inRange_ofOperand hr⟩

theorem follows_registerOf (hid : id < state.storage.vars.length) :
    (registerOf? id).Follows (registerOf id) state fun _ s => s = state :=
  .reads (follows_variable hid (.pure rfl))

end Build

end ByteBasic
