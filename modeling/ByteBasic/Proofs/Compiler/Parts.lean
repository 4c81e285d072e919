import ByteBasic.Compiler.Line

/-!
# The parts of a statement

Assignments, both sides of a condition and the built-in functions are put together from four steps: a
word is looked up, a variable's register is read, the storage carries out an operation, an instruction
is put out. A property of steps that these four have, and that composition keeps, is `Build.Closed`; all
those parts have it.

Whole statements also put out jumps and labels and change what the compiler knows of labels and
blocks. A property that is kept there as well is `Build.Level` as long as the blocks stay as they are,
and `Build.Thorough` in any case; all statements have it but the three that change the open stream or
take note of a declaration, and these have it if the property is kept then, too.
-/

namespace ByteBasic

/-- A fault that a line has by itself, however the code is laid out. -/
def CompileError.OfLine : CompileError → Prop
  | .layout _ => False
  | _ => True

/-- Whether a statement opens or closes a block or begins its other branch. -/
def Statement.block : Statement → Bool
  | .ifBlock _ => true
  | .loop _ => true
  | .otherwise => true
  | .close => true
  | .function _ => true
  | _ => false

namespace Build

variable {α β : Type}

/-- A property of steps that holds of the steps which put out neither jumps nor labels and leave blocks
and functions alone, and that is kept by composition. -/
structure Closed (P : ∀ {α : Type}, Build α → Prop) : Prop where
  pure : ∀ {α : Type} (a : α), P (pure a : Build α)
  fail : ∀ {α : Type} (error : CompileError), error.OfLine → P (Action.fail error : Build α)
  bind : ∀ {α β : Type} {action : Build α} {next : α → Build β},
    P action → (∀ a, P (next a)) → P (action >>= next)
  storing : ∀ {α : Type} (operation : StorageM α), P (storing operation)
  instruct : ∀ i : Instruction, P (instruct i)
  referent : ∀ operand : Operand, P (referent operand)
  registerOf : ∀ id : VarId, P (registerOf id)

namespace Closed

variable {P : ∀ {α : Type}, Build α → Prop}

theorem ite (_ : Closed P) {condition : Prop} [Decidable condition] {yes no : Build α} (hyes : P yes)
    (hno : P no) : P (if condition then yes else no) := by
  split
  · exact hyes
  · exact hno

theorem forM (closed : Closed P) {items : List β} {action : β → Build PUnit}
    (h : ∀ item, P (action item)) : P (items.forM action) := by
  induction items with
  | nil => exact closed.pure _
  | cons item items ih => exact closed.bind (h item) fun _ => ih

/-! ## Operands -/

theorem operandRegister (closed : Closed P) (referent : Referent) : P (operandRegister referent) := by
  rcases referent with ⟨id⟩ | ⟨register⟩ | ⟨address⟩ | ⟨address⟩ | ⟨value⟩
  · refine closed.bind (closed.registerOf id) fun register => ?_
    cases register with
    | some register => exact closed.bind (closed.storing _) fun _ => closed.pure _
    | none =>
      exact closed.bind (closed.storing _) fun _ => closed.bind (closed.storing _) fun _ =>
        closed.pure _
  · exact closed.pure _
  all_goals
    exact closed.bind (closed.storing _) fun _ => closed.bind (closed.instruct _) fun _ =>
      closed.pure _

theorem copyInto (closed : Closed P) (referent : Referent) (register : Register) :
    P (copyInto referent register) := by
  rcases referent with ⟨id⟩ | ⟨source⟩ | ⟨address⟩ | ⟨address⟩ | ⟨value⟩
  · exact closed.storing _
  · exact closed.ite (closed.pure _) (closed.instruct _)
  all_goals exact closed.instruct _

theorem bindForWrite (closed : Closed P) (id : VarId) (keep : Bool) : P (bindForWrite id keep) := by
  refine closed.bind (closed.registerOf id) fun register => ?_
  cases register with
  | some register => exact closed.bind (closed.storing _) fun _ => closed.pure _
  | none =>
    refine closed.bind (closed.storing _) fun register => ?_
    cases keep <;> exact closed.bind (closed.storing _) fun _ => closed.pure _

theorem resolve (closed : Closed P) (update : Update) : P (resolve update) := by
  cases update with
  | combine left op right =>
    exact closed.bind (closed.referent _) fun _ => closed.bind (closed.referent _) fun _ =>
      closed.pure _
  | _ => exact closed.bind (closed.referent _) fun _ => closed.pure _

theorem reserveNamed (closed : Closed P) (referent : Referent) : P (reserveNamed referent) := by
  rcases referent with ⟨id⟩ | ⟨register⟩ | ⟨address⟩ | ⟨address⟩ | ⟨value⟩
  · exact closed.pure _
  · exact closed.storing _
  all_goals exact closed.pure _

/-! ## Assignments and conditions -/

theorem compute (closed : Closed P) (computation : Computation) {target : Bool → Build Register}
    (htarget : ∀ keep, P (target keep)) : P (compute computation target) := by
  cases computation with
  | set source =>
    refine closed.ite ?_ ?_
    · refine closed.bind (closed.operandRegister _) fun register =>
        closed.bind (htarget _) fun dest => ?_
      split
      · exact closed.pure _
      · exact closed.bind (closed.instruct _) fun _ => closed.pure _
    · exact closed.bind (htarget _) fun _ => closed.bind (closed.copyInto _ _) fun _ => closed.pure _
  | combine left op right =>
    exact closed.bind (closed.operandRegister _) fun _ => closed.bind (closed.operandRegister _)
      fun _ => closed.bind (htarget _) fun _ => closed.bind (closed.instruct _) fun _ =>
        closed.pure _
  | compound op source =>
    exact closed.bind (closed.operandRegister _) fun _ => closed.bind (htarget _) fun _ =>
      closed.bind (closed.instruct _) fun _ => closed.pure _

theorem computeCell (closed : Closed P) (computation : Computation)
    (load : Register → Instruction) : P (computeCell computation load) := by
  have htarget : ∀ keep, P (cellTarget load keep) := by
    intro keep
    refine closed.bind (closed.storing _) fun register => ?_
    cases keep
    · exact closed.pure _
    · exact closed.bind (closed.instruct _) fun _ => closed.pure _
  unfold Build.computeCell
  split
  · exact closed.operandRegister _
  · exact closed.compute _ htarget

theorem assign (closed : Closed P) (dest : Referent) (update : Update) : P (assign dest update) := by
  refine closed.bind (closed.resolve update) fun computation =>
    closed.bind (closed.forM closed.reserveNamed) fun _ => ?_
  rcases dest with ⟨id⟩ | ⟨register⟩ | ⟨address⟩ | ⟨address⟩ | ⟨value⟩
  · exact closed.bind (closed.compute _ (closed.bindForWrite id)) fun _ => closed.storing _
  · exact closed.bind (closed.compute _ fun _ => closed.pure _) fun _ => closed.pure _
  · exact closed.bind (closed.computeCell _ _) fun _ => closed.instruct _
  · exact closed.bind (closed.computeCell _ _) fun _ => closed.instruct _
  · exact closed.fail _ trivial

theorem leftRegister (closed : Closed P) (left right : Referent) : P (leftRegister left right) := by
  unfold Build.leftRegister
  split
  · exact closed.pure _
  · refine closed.ite ?_ ?_
    · exact closed.bind (closed.storing _) fun _ => closed.bind (closed.copyInto _ _) fun _ =>
        closed.pure _
    · exact closed.bind (closed.copyInto _ _) fun _ => closed.pure _

theorem rightRegister (closed : Closed P) (first : Register) (right : Referent) :
    P (rightRegister first right) := by
  unfold Build.rightRegister
  split
  · exact closed.pure _
  · refine closed.ite ?_ ?_
    · exact closed.bind (closed.storing _) fun _ => closed.bind (closed.copyInto _ _) fun _ =>
        closed.pure _
    · exact closed.bind (closed.copyInto _ _) fun _ => closed.pure _

/-! ## Built-in functions -/

theorem write (closed : Closed P) (operand : Operand) : P (write operand) := by
  have hvalue : ∀ operand, P (writeValue operand) := fun operand =>
    closed.bind (closed.referent _) fun _ => closed.bind (closed.operandRegister _) fun _ =>
      closed.instruct _
  unfold Build.write
  split
  · exact hvalue _
  · refine closed.ite (closed.fail _ trivial) (closed.bind (closed.storing _) fun register =>
      closed.forM fun byte => ?_)
    exact closed.bind (closed.instruct _) fun _ => closed.instruct _
  · exact hvalue _

theorem rotate (closed : Closed P) (target amount : Operand) : P (rotate target amount) := by
  refine closed.bind (closed.referent _) fun referent => ?_
  split
  · have hamount : P (rotateAmount amount) := by
      refine closed.bind (closed.referent _) fun referent => ?_
      split
      · exact closed.ite (closed.pure _) (closed.fail _ trivial)
      · exact closed.fail _ trivial
    exact closed.bind hamount fun _ => closed.bind (closed.bindForWrite _ _) fun _ =>
      closed.bind (closed.instruct _) fun _ => closed.storing _
  · exact closed.fail _ trivial

theorem popInto (closed : Closed P) (operand : Operand) : P (popInto operand) := by
  refine closed.bind (closed.referent _) fun referent => ?_
  split
  · exact closed.bind (closed.bindForWrite _ _) fun _ => closed.bind (closed.storing _) fun _ =>
      closed.instruct _
  · exact closed.bind (closed.storing _) fun _ => closed.instruct _
  · exact closed.fail _ trivial

theorem callBuiltin (closed : Closed P) (builtin : Builtin) (arguments : List Operand) :
    P (callBuiltin builtin arguments) := by
  unfold Build.callBuiltin
  split
  · exact closed.write _
  · exact closed.rotate _ _
  · exact closed.bind (closed.referent _) fun _ => closed.bind (closed.operandRegister _) fun _ =>
      closed.instruct _
  · exact closed.popInto _
  · exact closed.fail _ trivial

end Closed

/-! ## Statements between blocks -/

/-- A property that is also kept by putting out jumps and labels, and by changes that leave the open
stream, the open blocks and the declarations without a value alone. -/
structure Level (P : ∀ {α : Type}, Build α → Prop) : Prop extends Closed P where
  get : ∀ {α : Type} {next : BuildState → Build α}, (∀ state, P (next state)) →
    P (Action.get >>= next)
  emit : ∀ item : Item, P (emit item)
  adjust : ∀ {change : BuildState → BuildState}, (∀ state, (change state).current = state.current) →
    (∀ state, (change state).blocks = state.blocks) →
    (∀ state, (change state).forwardDeclared = state.forwardDeclared) → P (Action.modify change)

namespace Level

variable {P : ∀ {α : Type}, Build α → Prop}

theorem flush (level : Level P) : P flush :=
  level.storing _

theorem namedLabel (level : Level P) (name : String) : P (namedLabel name) :=
  level.get fun _ => level.bind (level.adjust (fun _ => rfl) (fun _ => rfl) fun _ => rfl) fun _ =>
    level.pure _

theorem blockName (level : Level P) (keyword : String) : P (blockName keyword) :=
  level.get fun _ => level.bind (level.adjust (fun _ => rfl) (fun _ => rfl) fun _ => rfl) fun _ =>
    level.pure _

theorem compare (level : Level P) (condition : Condition) (accept reject : Target)
    (line : Nat) : P (compare condition accept reject line) := by
  have closed := level.toClosed
  refine closed.bind (closed.referent _) fun left => closed.bind (closed.referent _) fun right =>
    closed.ite (closed.fail _ trivial) ?_
  refine closed.bind (closed.forM closed.reserveNamed) fun _ =>
    closed.bind (closed.leftRegister _ _) fun first =>
      closed.bind (closed.rightRegister _ _) fun second => ?_
  exact closed.ite (level.emit _) (closed.ite (level.emit _)
    (closed.bind (closed.instruct _) fun _ => level.emit _))

theorem call (level : Level P) (name : String) (arguments : List Operand) (line : Nat) :
    P (call name arguments line) := by
  unfold Build.call
  split
  · exact level.callBuiltin _ _
  · refine level.get fun state => ?_
    split
    · exact level.fail _ trivial
    · exact level.ite (level.bind level.flush fun _ => level.emit _) (level.fail _ trivial)

/-- A declaration has the property if taking note of it keeps it. -/
theorem declare (level : Level P)
    (hmodify : ∀ {change : BuildState → BuildState},
      (∀ state, (change state).current = state.current) →
      (∀ state, (change state).blocks = state.blocks) → P (Action.modify change))
    (name : String) (value : Option Operand) (line : Nat) : P (declare name value line) := by
  refine level.get fun state => ?_
  split
  · refine level.bind (level.storing _) fun id =>
      level.bind (hmodify (fun _ => rfl) fun _ => rfl) fun _ => ?_
    split
    · exact level.assign _ _
    · exact hmodify (fun _ => rfl) fun _ => rfl
  · exact level.fail _ trivial
  · exact level.ite (level.bind (hmodify (fun _ => rfl) fun _ => rfl) fun _ => level.assign _ _)
      (level.fail _ trivial)

/-- All statements have the property that neither declare nor belong to a block. -/
theorem statement (level : Level P) {statement : Statement} (line : Nat)
    (hdeclare : ∀ name value, statement ≠ .declare name value) (hblock : statement.block = false) :
    P (Build.statement statement line) := by
  cases statement with
  | declare name value => exact absurd rfl (hdeclare name value)
  | assign dest update => exact level.bind (level.referent _) fun _ => level.assign _ _
  | ifGoto condition label =>
    exact level.bind level.flush fun _ => level.bind (level.namedLabel _) fun _ =>
      level.compare _ _ _ _
  | ret =>
    exact level.get fun _ => level.ite (level.fail .returnOutsideFunction trivial)
      (level.bind level.flush fun _ => level.emit _)
  | goto label =>
    exact level.bind level.flush fun _ => level.bind (level.namedLabel _) fun _ => level.emit _
  | label label =>
    exact level.bind level.flush fun _ => level.bind (level.namedLabel _) fun _ => level.emit _
  | halt => exact level.emit _
  | exit code =>
    exact level.bind (level.instruct _) fun _ => level.bind (level.instruct _) fun _ =>
      level.emit _
  | call name arguments => exact level.call name arguments line
  | ifBlock _ => cases hblock
  | loop _ => cases hblock
  | otherwise => cases hblock
  | close => cases hblock
  | function _ => cases hblock

end Level

/-! ## Statements of blocks -/

/-- A property that is also kept by changes of the open blocks. -/
structure Thorough (P : ∀ {α : Type}, Build α → Prop) : Prop extends Level P where
  modify : ∀ {change : BuildState → BuildState}, (∀ state, (change state).current = state.current) →
    (∀ state, (change state).forwardDeclared = state.forwardDeclared) → P (Action.modify change)
  adjust hcurrent _ hforward := modify hcurrent hforward

namespace Thorough

variable {P : ∀ {α : Type}, Build α → Prop}

theorem openBlock (thorough : Thorough P) (block : Block) (line : Nat) : P (openBlock block line) :=
  thorough.bind (thorough.emit _) fun _ => thorough.modify (fun _ => rfl) fun _ => rfl

theorem openElse (thorough : Thorough P) (line : Nat) : P (openElse line) := by
  refine thorough.bind thorough.flush fun _ => thorough.get fun state => ?_
  split
  · exact thorough.fail _ trivial
  · split
    · exact thorough.fail _ trivial
    · exact thorough.bind (thorough.modify (fun _ => rfl) fun _ => rfl) fun _ =>
        thorough.forM thorough.emit

/-- All statements have the property that neither declare nor open or close a function. -/
theorem statement (thorough : Thorough P) {statement : Statement} (line : Nat)
    (hdeclare : ∀ name value, statement ≠ .declare name value)
    (hfunction : ∀ name, statement ≠ .function name) (hclose : statement ≠ .close) :
    P (Build.statement statement line) := by
  have level := thorough.toLevel
  cases statement with
  | ifBlock condition =>
    exact level.bind level.flush fun _ => level.bind (level.blockName _) fun _ =>
      level.get fun _ => level.bind (thorough.modify (fun _ => rfl) fun _ => rfl) fun _ =>
        level.bind (level.compare _ _ _ _) fun _ => thorough.openBlock _ _
  | loop condition =>
    exact level.bind level.flush fun _ => level.bind (level.blockName _) fun _ =>
      level.get fun _ => level.bind (thorough.modify (fun _ => rfl) fun _ => rfl) fun _ =>
        level.bind (level.emit _) fun _ => level.bind (level.compare _ _ _ _) fun _ =>
          thorough.openBlock _ _
  | otherwise => exact thorough.openElse line
  | close => exact absurd rfl hclose
  | function name => exact absurd rfl (hfunction name)
  | _ => exact level.statement line hdeclare rfl

/-! ### Functions -/

variable (hmodify : ∀ {change : BuildState → BuildState},
  (∀ state, (change state).forwardDeclared = state.forwardDeclared) → P (Action.modify change))

include hmodify

theorem closeBlock (thorough : Thorough P) (line : Nat) : P (closeBlock line) := by
  refine thorough.bind thorough.flush fun _ => thorough.get fun state => ?_
  split
  · exact thorough.fail _ trivial
  · refine thorough.bind (hmodify fun _ => rfl) fun _ =>
      thorough.bind (thorough.forM thorough.emit) fun _ => ?_
    exact thorough.ite (hmodify fun _ => rfl) (thorough.pure _)

theorem defineFunction (thorough : Thorough P) (name : String) (line : Nat) :
    P (defineFunction name line) := by
  refine thorough.get fun state => thorough.ite (thorough.fail _ trivial)
    (thorough.ite (thorough.fail _ trivial) (thorough.ite (thorough.fail _ trivial) ?_))
  exact thorough.bind thorough.flush fun _ => thorough.get fun _ =>
    thorough.bind (hmodify fun _ => rfl) fun _ => thorough.openBlock _ _

end Thorough

end Build

end ByteBasic
