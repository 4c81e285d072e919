import ByteBasic.Proofs.Compiler.Guarding
import ByteBasic.Proofs.Storage.Confining

/-!
# The parts of a statement that control passes through

Most of what the compiler does for a statement is finding registers for its operands and putting out
plain instructions. Such a step is described from a state `base` in which the statement starts: as
long as only variables that can be seen from there are held in registers, the step keeps it so,
leaves labels, functions, blocks and the open stream alone, puts out no item where control turns,
and touches memory in two ways only: for a variable that can be seen from `base`, or at an address
that the statement names. `Build.Passes` says all of this, also of a step that fails, and the rule
for one step after another is `Build.Passes.bind`.

**Theorem (`passes_assign`, `passes_call`).** Assignments and calls of built-in functions pass, and
so do the parts of a condition up to its test.
-/

namespace ByteBasic

open Storage (Confines)

/-! ## What a state shows -/

/-- What decides where control can go. -/
structure Control where
  labels : Labels
  functions : List Function
  current : Scope
  blocks : List Block

/-- The part of a state that decides where control can go. -/
def BuildState.control (state : BuildState) : Control :=
  ⟨state.labels, state.functions, state.current, state.blocks⟩

def Update.operands : Update → List Operand
  | .set source => [source]
  | .combine left _ right => [left, right]
  | .compound _ source => [source]

namespace BuildState

/-- A variable can be seen: it is global, or local to the stream that is open. -/
def Sees (state : BuildState) (id : VarId) : Prop :=
  id < state.storage.vars.length ∧
    ((state.storage.get id).scope = .global ∨ (state.storage.get id).scope = state.current)

/-- One of the operands is a memory cell that is written by its address. -/
def Names (state : BuildState) (operands : List Operand) (address : UInt8) : Prop :=
  ∃ operand ∈ operands,
    Referent.ofOperand state.storage state.current operand = .ok (.memory address)

/-- Only variables that can be seen are held in registers. -/
def Confined (state : BuildState) : Prop :=
  state.storage.Confined state.Sees

/-- A state on the way through a statement that started in `base`. -/
structure Within (base state : BuildState) : Prop where
  same : base.storage.SameVars state.storage
  control : state.control = base.control
  confined : state.storage.Confined base.Sees

variable {base state : BuildState}

theorem Confined.within (h : base.Confined) : base.Within base :=
  ⟨.refl base.storage, rfl, h⟩

/-- What is held and what can be seen depends on the storage and the open stream alone. -/
theorem Confined.of_storage (h : base.Confined) (hstorage : state.storage = base.storage)
    (hcurrent : state.current = base.current) : state.Confined := by
  intro id hid
  rw [hstorage] at hid
  have hsees := h id hid
  unfold Sees at hsees ⊢
  rw [hstorage, hcurrent]
  exact hsees

theorem Within.current (h : base.Within state) : state.current = base.current :=
  congrArg Control.current h.control

theorem Within.labels (h : base.Within state) : state.labels = base.labels :=
  congrArg Control.labels h.control

theorem Within.functions (h : base.Within state) : state.functions = base.functions :=
  congrArg Control.functions h.control

theorem Within.blocks (h : base.Within state) : state.blocks = base.blocks :=
  congrArg Control.blocks h.control

theorem Within.sees (h : base.Within state) (id : VarId) : state.Sees id ↔ base.Sees id := by
  have hscope : (state.storage.get id).scope = (base.storage.get id).scope :=
    congrArg (fun identity => identity.2.1) (h.same.identity_eq id)
  unfold Sees
  rw [h.same.length_eq, hscope, h.current]

theorem Within.confined' (h : base.Within state) : state.Confined :=
  fun id hid => (h.sees id).2 (h.confined id hid)

end BuildState

theorem Storage.scope_of_find? {storage : Storage} {name : String} {scope : Scope} {id : VarId}
    (h : storage.find? name scope = some id) : (storage.get id).scope = scope := by
  obtain ⟨hlt, hfound, -⟩ := List.findIdx?_eq_some_iff_getElem.1 h
  rw [Storage.get_eq_getElem hlt]
  simp only [Bool.and_eq_true, beq_iff_eq] at hfound
  exact hfound.1

/-- The variable that a name means can be seen. -/
theorem BuildState.sees_of_lookup? {state : BuildState} {name : String} {id : VarId}
    (h : state.storage.lookup? name state.current = some id) : state.Sees id := by
  refine ⟨Referent.lt_of_lookup? h, ?_⟩
  unfold Storage.lookup? at h
  split at h
  · next found hfind =>
    cases h
    exact .inr (Storage.scope_of_find? hfind)
  · exact .inl (Storage.scope_of_find? h)

theorem BuildState.sees_of_ofOperand {state : BuildState} {operand : Operand} {id : VarId}
    (h : Referent.ofOperand state.storage state.current operand = .ok (.variable id)) :
    state.Sees id := by
  cases operand with
  | word word =>
    rw [Referent.ofOperand, Referent.ofWord] at h
    split at h
    · next found hlookup =>
      cases h
      exact sees_of_lookup? hlookup
    · exact absurd h Referent.not_variable_ofSpelling
  | text bytes => rcases bytes with _ | ⟨byte, _ | ⟨other, rest⟩⟩ <;> cases h

/-- On the way through a statement, an operand refers to what it did at the start. -/
theorem BuildState.Within.ofOperand_eq {base state : BuildState} (h : base.Within state)
    (operand : Operand) : Referent.ofOperand state.storage state.current operand =
      Referent.ofOperand base.storage base.current operand := by
  rw [h.current, Referent.ofOperand_of_same h.same]

/-- The variable of a referent can be seen, and its cell is named by an operand. -/
def Referent.Known (base : BuildState) (named : List Operand) : Referent → Prop
  | .variable id => base.Sees id
  | .memory address => base.Names named address
  | _ => True

/-- Where an item touches memory, it does so for a variable that can be seen or at an address that
the statement names. -/
def Emission.Isolated (named : List Operand) (emission : Emission) : Prop :=
  ∀ i, emission.item = .instruction i → ∀ address, i.cell? = some address →
    match emission.origin with
    | .variable => ∃ id, emission.state.Sees id ∧
      (emission.state.storage.get id).address = address
    | .statement => emission.state.Names named address

namespace Build

variable {α β : Type} {base : BuildState} {named : List Operand}

/-- A step on the way through a statement that control passes through; if it succeeds, `ok` holds of
its result. -/
def Passes (base : BuildState) (named : List Operand) (action : Build α) (ok : α → Prop) : Prop :=
  ∀ state, base.Within state →
    base.Within (action.run state).state ∧
    (∀ emission, .code emission ∈ (action.run state).output →
      base.Within emission.state ∧ ¬ emission.item.Turns ∧ emission.Isolated named) ∧
    (∀ error, (action.run state).result = .error error → error.kind ≠ .jump) ∧
    ∀ a, (action.run state).result = .ok a → ok a

/-! ## Steps -/

namespace Passes

theorem bind {action : Build α} {next : α → Build β} {mid : α → Prop} {ok : β → Prop}
    (h : Passes base named action mid) (hnext : ∀ a, mid a → Passes base named (next a) ok) :
    Passes base named (action >>= next) ok := by
  intro state hwithin
  obtain ⟨hstate, hout, herror, hmid⟩ := h state hwithin
  rw [Action.run_bind]
  rcases hrun : action.run state with ⟨error | a, middle, output⟩
  · rw [hrun] at hstate hout herror
    exact ⟨hstate, hout, fun _ heq => herror _ (by cases heq; rfl), fun _ heq => by cases heq⟩
  · rw [hrun] at hstate hout hmid
    obtain ⟨hstate', hout', herror', hok⟩ := hnext a (hmid a rfl) middle hstate
    rw [Outcome.andThen_ok]
    refine ⟨hstate', fun emission hmem => ?_, herror', hok⟩
    exact (List.mem_append.1 hmem).elim (hout emission) (hout' emission)

theorem pure {ok : α → Prop} {a : α} (h : ok a) : Passes base named (Pure.pure a) ok := by
  refine fun state hwithin => ⟨hwithin, fun _ hmem => (by cases hmem), fun _ heq => (by cases heq),
    fun b hb => ?_⟩
  cases hb
  exact h

theorem fail {ok : α → Prop} {error : CompileError} (h : error.kind ≠ .jump) :
    Passes base named (Action.fail error) ok := by
  refine fun state hwithin => ⟨hwithin, fun _ hmem => (by cases hmem), fun _ heq => ?_,
    fun _ hb => by cases hb⟩
  cases heq
  exact h

theorem get {next : BuildState → Build α} {ok : α → Prop}
    (h : ∀ state, base.Within state → Passes base named (next state) ok) :
    Passes base named (Action.get >>= next) ok := by
  intro state hwithin
  rw [Action.run_bind, Action.run_get, Outcome.andThen_ok_nil]
  exact h state hwithin state hwithin

theorem ofExcept {ok : α → Prop} {result : Except CompileError α}
    (herror : ∀ error, result = .error error → error.kind ≠ .jump)
    (hok : ∀ a, result = .ok a → ok a) : Passes base named (Action.ofExcept result) ok :=
  fun _ hwithin => ⟨hwithin, fun _ hmem => (by cases hmem), herror, hok⟩

theorem ite {condition : Prop} [Decidable condition] {yes no : Build α} {ok : α → Prop}
    (hyes : Passes base named yes ok) (hno : Passes base named no ok) :
    Passes base named (if condition then yes else no) ok := by
  split
  · exact hyes
  · exact hno

theorem forM {items : List β} {action : β → Build PUnit}
    (h : ∀ item ∈ items, Passes base named (action item) fun _ => True) :
    Passes base named (items.forM action) fun _ => True := by
  induction items with
  | nil => exact .pure trivial
  | cons item items ih =>
    exact (h item (List.mem_cons_self ..)).bind fun _ _ =>
      ih fun other hother => h other (List.mem_cons_of_mem _ hother)

end Passes

theorem passes_emit {item : Item} (hturns : ¬ item.Turns)
    (hcell : ∀ i, item = .instruction i → ∀ address, i.cell? = some address →
      base.Names named address) : Passes base named (emit item) fun _ => True := by
  refine fun state hwithin => ⟨⟨hwithin.same, hwithin.control, hwithin.confined⟩,
    fun emission hmem => ?_, fun _ heq => (by cases heq), fun _ _ => trivial⟩
  have hcode : BuildEvent.code emission ∈ [BuildEvent.code ⟨state, item, .statement⟩] := hmem
  obtain rfl : emission = ⟨state, item, .statement⟩ := by simpa using hcode
  refine ⟨hwithin, hturns, fun i hi address haddress => ?_⟩
  obtain ⟨operand, hmem, hoperand⟩ := hcell i hi address haddress
  exact ⟨operand, hmem, (hwithin.ofOperand_eq operand).trans hoperand⟩

theorem passes_instruct {i : Instruction} (h : i.cell? = none) :
    Passes base named (instruct i) fun _ => True := by
  refine passes_emit (fun hturns => hturns) fun j hj address haddress => ?_
  cases hj
  rw [h] at haddress
  cases haddress

/-- An instruction that touches a cell which the statement names. -/
theorem passes_cell {i : Instruction} {address : UInt8} (h : base.Names named address)
    (hcell : i.cell? = some address) : Passes base named (instruct i) fun _ => True := by
  refine passes_emit (fun hturns => hturns) fun j hj other hother => ?_
  cases hj
  rw [hcell] at hother
  cases hother
  exact h

/-- No fault of the storage is a jump's. -/
theorem kind_storage (error : StorageError) : (CompileError.storage error).kind ≠ .jump := by
  cases error <;> simp [CompileError.kind, StorageError.kind]

theorem passes_storing {operation : StorageM α}
    (h : ∀ storage : Storage, storage.Confined base.Sees → Confines base.Sees operation storage) :
    Passes base named (storing operation) fun _ => True := by
  intro state hwithin
  obtain ⟨hsame, hconfined, hcells⟩ := h state.storage hwithin.confined
  refine ⟨⟨hwithin.same.trans hsame, hwithin.control, hconfined⟩, fun emission hmem => ?_,
    fun error herror => ?_, fun _ _ => trivial⟩
  · obtain ⟨event, hevent, heq⟩ := List.mem_map.1 hmem
    cases event with
    | note n => cases heq
    | code i =>
      cases heq
      refine ⟨hwithin, fun hturns => hturns, fun j hj address haddress => ?_⟩
      cases hj
      obtain ⟨id, hid, hslot⟩ := hcells i (List.mem_filterMap.2 ⟨_, hevent, rfl⟩) address haddress
      exact ⟨id, (hwithin.sees id).2 hid, hslot⟩
  · have hresult : (operation.run state.storage).result.mapError CompileError.storage = .error error :=
      herror
    cases hop : (operation.run state.storage).result with
    | ok a =>
      rw [hop] at hresult
      cases hresult
    | error fault =>
      rw [hop] at hresult
      cases hresult
      exact kind_storage fault

theorem passes_flush : Passes base named flush fun _ => True :=
  passes_storing fun _ h => Storage.confines_flush h

theorem passes_pick (start : Nat) : Passes base named (storing (Storage.pick start)) fun _ => True :=
  passes_storing fun _ h => Storage.confines_pick h start

theorem passes_scratch : Passes base named (storing Storage.scratch) fun _ => True :=
  passes_storing fun _ h => Storage.confines_scratch h

theorem passes_reserve (register : Register) :
    Passes base named (storing (Storage.reserve register)) fun _ => True :=
  passes_storing fun _ h => Storage.confines_reserve h register

theorem passes_markModified (id : VarId) :
    Passes base named (storing (Storage.markModified id)) fun _ => True :=
  passes_storing fun _ h => Storage.confines_markModified h id

theorem passes_bind {id : VarId} (hid : base.Sees id) (register : Register) :
    Passes base named (storing (Storage.bind id register true)) fun _ => True :=
  passes_storing fun _ h => Storage.confines_bind h hid register true

theorem passes_load {id : VarId} (hid : base.Sees id) (register : Register) (keep : Bool) :
    Passes base named (storing (Storage.load id register keep)) fun _ => True :=
  passes_storing fun _ h => Storage.confines_load h hid register keep

/-! ## Operands -/

theorem passes_referent {operand : Operand} (h : operand ∈ named) :
    Passes base named (referent operand) fun r => r.Known base named := by
  refine .get fun state hwithin => .ofExcept (fun error herror => ?_) fun r hr => ?_
  · rw [Referent.kind_ofOperand herror]
    exact fun hno => by cases hno
  · rw [hwithin.ofOperand_eq] at hr
    rcases r with ⟨id⟩ | ⟨register⟩ | ⟨address⟩ | ⟨address⟩ | ⟨value⟩
    · exact BuildState.sees_of_ofOperand hr
    · trivial
    · exact ⟨operand, h, hr⟩
    · trivial
    · trivial

theorem passes_registerOf (id : VarId) : Passes base named (registerOf id) fun _ => True :=
  .get fun _ _ => .pure trivial

theorem passes_operandRegister {r : Referent} (h : r.Known base named) :
    Passes base named (operandRegister r) fun _ => True := by
  rcases r with ⟨id⟩ | ⟨register⟩ | ⟨address⟩ | ⟨address⟩ | ⟨value⟩
  · refine (passes_registerOf id).bind fun found _ => ?_
    cases found with
    | some register => exact (passes_bind h register).bind fun _ _ => .pure trivial
    | none =>
      exact (passes_pick 1).bind fun register _ =>
        (passes_load h register true).bind fun _ _ => .pure trivial
  · exact .pure trivial
  · exact passes_scratch.bind fun register _ =>
      (passes_cell h rfl).bind fun _ _ => .pure trivial
  · exact passes_scratch.bind fun register _ =>
      (passes_instruct rfl).bind fun _ _ => .pure trivial
  · exact passes_scratch.bind fun register _ =>
      (passes_instruct rfl).bind fun _ _ => .pure trivial

theorem passes_copyInto {r : Referent} (h : r.Known base named) (register : Register) :
    Passes base named (copyInto r register) fun _ => True := by
  rcases r with ⟨id⟩ | ⟨source⟩ | ⟨address⟩ | ⟨address⟩ | ⟨value⟩
  · exact passes_load h register false
  · exact .ite (.pure trivial) (passes_instruct rfl)
  · exact passes_cell h rfl
  · exact passes_instruct rfl
  · exact passes_instruct rfl

theorem passes_bindForWrite {id : VarId} (h : base.Sees id) (keep : Bool) :
    Passes base named (bindForWrite id keep) fun _ => True := by
  refine (passes_registerOf id).bind fun found _ => ?_
  cases found with
  | some register => exact (passes_bind h register).bind fun _ _ => .pure trivial
  | none =>
    refine (passes_pick 1).bind fun register _ => ?_
    cases keep with
    | true => exact (passes_load h register true).bind fun _ _ => .pure trivial
    | false => exact (passes_bind h register).bind fun _ _ => .pure trivial

theorem passes_resolve {update : Update} (h : ∀ operand ∈ update.operands, operand ∈ named) :
    Passes base named (resolve update) fun computation =>
      ∀ r ∈ computation.operands, r.Known base named := by
  cases update with
  | set source =>
    refine (passes_referent (h source (by simp [Update.operands]))).bind fun r hr => .pure ?_
    simpa [Computation.operands] using hr
  | combine left op right =>
    refine (passes_referent (h left (by simp [Update.operands]))).bind fun l hl => ?_
    refine (passes_referent (h right (by simp [Update.operands]))).bind fun r hr => .pure ?_
    simpa [Computation.operands] using ⟨hl, hr⟩
  | compound op source =>
    refine (passes_referent (h source (by simp [Update.operands]))).bind fun r hr => .pure ?_
    simpa [Computation.operands] using hr

theorem passes_reserveAll (referents : List Referent) :
    Passes base named (referents.forM reserveNamed) fun _ => True := by
  refine .forM fun r _ => ?_
  rcases r with ⟨id⟩ | ⟨register⟩ | ⟨address⟩ | ⟨address⟩ | ⟨value⟩
  · exact .pure trivial
  · exact passes_reserve register
  all_goals exact .pure trivial

/-! ## Assignments -/

theorem passes_operation (op : BinaryOp) (dest left right : Register) :
    Passes base named (instruct (operation op dest left right)) fun _ => True := by
  cases op <;> exact passes_instruct rfl

theorem passes_compute {computation : Computation} {target : Bool → Build Register}
    (h : ∀ r ∈ computation.operands, r.Known base named)
    (htarget : ∀ keep, Passes base named (target keep) fun _ => True) :
    Passes base named (compute computation target) fun _ => True := by
  cases computation with
  | set source =>
    have hsource := h source (List.mem_singleton_self source)
    refine .ite ?_ ?_
    · refine (passes_operandRegister hsource).bind fun register _ => (htarget false).bind
        fun dest _ => ?_
      exact .ite (.pure trivial) ((passes_instruct rfl).bind fun _ _ => .pure trivial)
    · exact (htarget false).bind fun dest _ =>
        (passes_copyInto hsource dest).bind fun _ _ => .pure trivial
  | combine left op right =>
    refine (passes_operandRegister (h left (by simp [Computation.operands]))).bind fun a _ => ?_
    refine (passes_operandRegister (h right (by simp [Computation.operands]))).bind fun b _ => ?_
    exact (htarget false).bind fun dest _ =>
      (passes_operation op dest a b).bind fun _ _ => .pure trivial
  | compound op source =>
    refine (passes_operandRegister (h source (List.mem_singleton_self source))).bind fun b _ => ?_
    exact (htarget true).bind fun dest _ =>
      (passes_operation op dest dest b).bind fun _ _ => .pure trivial

theorem passes_computeCell {computation : Computation} {load : Register → Instruction}
    (h : ∀ r ∈ computation.operands, r.Known base named)
    (hload : ∀ register, Passes base named (instruct (load register)) fun _ => True) :
    Passes base named (computeCell computation load) fun _ => True := by
  have htarget : ∀ keep, Passes base named (cellTarget load keep) fun _ => True := by
    intro keep
    refine passes_scratch.bind fun register _ => ?_
    cases keep with
    | true => exact (hload register).bind fun _ _ => .pure trivial
    | false => exact .pure trivial
  unfold computeCell
  split
  · exact passes_operandRegister (h _ (List.mem_singleton_self _))
  · exact passes_compute h htarget

theorem passes_assign {dest : Referent} {update : Update} (hdest : dest.Known base named)
    (h : ∀ operand ∈ update.operands, operand ∈ named) :
    Passes base named (assign dest update) fun _ => True := by
  refine (passes_resolve h).bind fun computation hcomputation =>
    (passes_reserveAll _).bind fun _ _ => ?_
  rcases dest with ⟨id⟩ | ⟨register⟩ | ⟨address⟩ | ⟨address⟩ | ⟨value⟩
  · exact (passes_compute hcomputation (passes_bindForWrite hdest)).bind
      fun _ _ => passes_markModified id
  · exact (passes_compute hcomputation fun _ => .pure trivial).bind fun _ _ => .pure trivial
  · exact (passes_computeCell hcomputation fun register => passes_cell hdest rfl).bind
      fun _ _ => passes_cell hdest rfl
  · exact (passes_computeCell hcomputation fun register => passes_instruct rfl).bind
      fun _ _ => passes_instruct rfl
  · exact .fail fun hno => by cases hno

/-! ## The sides of a condition -/

theorem passes_leftRegister {left : Referent} (h : left.Known base named) (right : Referent) :
    Passes base named (leftRegister left right) fun _ => True := by
  unfold leftRegister
  split
  · exact .pure trivial
  · refine .ite ?_ ?_
    · exact (passes_pick 1).bind fun register _ =>
        (passes_copyInto h register).bind fun _ _ => .pure trivial
    · exact (passes_copyInto h 0).bind fun _ _ => .pure trivial

theorem passes_rightRegister (first : Register) {right : Referent} (h : right.Known base named) :
    Passes base named (rightRegister first right) fun _ => True := by
  unfold rightRegister
  split
  · exact .pure trivial
  · refine .ite ?_ ?_
    · exact (passes_pick 1).bind fun register _ =>
        (passes_copyInto h register).bind fun _ _ => .pure trivial
    · exact (passes_copyInto h 0).bind fun _ _ => .pure trivial

/-! ## Calls of built-in functions -/

theorem passes_withOperand {operand : Operand} (h : operand ∈ named) {use : Register → Instruction}
    (huse : ∀ register, (use register).cell? = none) :
    Passes base named (do
        let value ← referent operand
        let register ← operandRegister value
        instruct (use register)) fun _ => True :=
  (passes_referent h).bind fun _ hr =>
    (passes_operandRegister hr).bind fun register _ => passes_instruct (huse register)

theorem passes_write {operand : Operand} (h : operand ∈ named) :
    Passes base named (write operand) fun _ => True := by
  unfold write
  split
  · exact passes_withOperand h fun _ => rfl
  · refine .ite (.fail fun hno => by cases hno) (passes_scratch.bind fun register _ => ?_)
    exact .forM fun byte _ => (passes_instruct rfl).bind fun _ _ => passes_instruct rfl
  · exact passes_withOperand h fun _ => rfl

theorem passes_rotate {target amount : Operand} (htarget : target ∈ named)
    (hamount : amount ∈ named) : Passes base named (rotate target amount) fun _ => True := by
  refine (passes_referent htarget).bind fun r hr => ?_
  split
  · have hrotate : Passes base named (rotateAmount amount) fun _ => True := by
      refine (passes_referent hamount).bind fun r _ => ?_
      split
      · exact .ite (.pure trivial) (.fail fun hno => by cases hno)
      · exact .fail fun hno => by cases hno
    exact hrotate.bind fun _ _ => (passes_bindForWrite hr true).bind fun _ _ =>
      (passes_instruct rfl).bind fun _ _ => passes_markModified _
  · exact .fail fun hno => by cases hno

theorem passes_popInto {operand : Operand} (h : operand ∈ named) :
    Passes base named (popInto operand) fun _ => True := by
  refine (passes_referent h).bind fun r hr => ?_
  split
  · exact (passes_bindForWrite hr false).bind fun _ _ =>
      (passes_markModified _).bind fun _ _ => passes_instruct rfl
  · exact (passes_reserve _).bind fun _ _ => passes_instruct rfl
  · exact .fail fun hno => by cases hno

theorem passes_callBuiltin (builtin : Builtin) {arguments : List Operand}
    (h : ∀ operand ∈ arguments, operand ∈ named) :
    Passes base named (callBuiltin builtin arguments) fun _ => True := by
  unfold callBuiltin
  split
  · exact passes_write (h _ (by simp))
  · exact passes_rotate (h _ (by simp)) (h _ (by simp))
  · exact passes_withOperand (h _ (by simp)) fun _ => rfl
  · exact passes_popInto (h _ (by simp))
  · exact .fail fun hno => by cases hno

end Build

end ByteBasic
