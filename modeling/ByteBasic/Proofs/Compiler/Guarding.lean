import ByteBasic.Proofs.Compiler.Operands
import ByteBasic.Proofs.Storage.Settling

/-!
# What every item finds

Each item is put out in some state of the compiler. `Emission.Guarded` says what that state has to be
like: the storage is settled wherever control can come from or go elsewhere, and memory is stored to
only in the slots of variables and in cells that the statement names. `Build.Guards` is a step all of
whose items are guarded; the rule for one step after another is `Build.Guards.bind`.

**Theorem (`guards_line`).** In every state with a housed storage, all that a line puts out is guarded,
also if it is refused, and the storage is still housed if it is not.
-/

namespace ByteBasic

open Storage (Housed Loose Settled Moves)

/-! ## Items and states -/

/-- Items where control can come from or go elsewhere. -/
def Item.Turns : Item → Prop
  | .instruction _ => False
  | .halt => False
  | _ => True

namespace Labels

/-- No label has its place yet. -/
def Unplaced (labels : Labels) : Prop :=
  ∀ id, labels.offset? id = none

variable {labels : Labels}

theorem Unplaced.add (h : labels.Unplaced) {label : Label} (hlabel : label.offset = none) :
    (labels.add label).2.Unplaced := by
  intro id
  have hid := h id
  unfold offset? at hid ⊢
  rw [show (labels.add label).2.entries = labels.entries ++ [label] from rfl]
  rcases Nat.lt_trichotomy id labels.entries.length with hlt | rfl | hgt
  · rw [List.getElem?_append_left hlt]
    exact hid
  · simpa using hlabel
  · rw [List.getElem?_eq_none (by simpa using Nat.succ_le_of_lt hgt)]
    rfl

theorem Unplaced.named (h : labels.Unplaced) (name : String) : (labels.named name).2.Unplaced := by
  unfold Labels.named
  split
  · exact h
  · exact h.add rfl

end Labels

/-- Nothing that a state has is taken back. -/
structure BuildState.Later (before after : BuildState) : Prop where
  vars : before.storage.vars.length ≤ after.storage.vars.length
  functions : before.functions.length ≤ after.functions.length
  labels : before.labels.Unplaced → after.labels.Unplaced

namespace BuildState.Later

variable {before middle after : BuildState}

theorem refl (state : BuildState) : state.Later state :=
  ⟨Nat.le_refl _, Nat.le_refl _, fun h => h⟩

theorem trans (h₁ : before.Later middle) (h₂ : middle.Later after) : before.Later after :=
  ⟨Nat.le_trans h₁.vars h₂.vars, Nat.le_trans h₁.functions h₂.functions,
    fun h => h₂.labels (h₁.labels h)⟩

theorem inRange (h : before.Later after) {referent : Referent}
    (hin : referent.InRange before.storage) : referent.InRange after.storage := by
  rcases referent with ⟨id⟩ | _ | _ | _ | _
  · exact Nat.lt_of_lt_of_le hin h.vars
  all_goals trivial

end BuildState.Later

/-- What holds of an item and the state it is put out in. The cells are those that the statement
names as destinations. -/
structure Emission.Guarded (cells : UInt8 → Prop) (emission : Emission) : Prop where
  turns : emission.item.Turns → emission.state.storage.Settled
  stores : ∀ r address, emission.item = .instruction (.store r address) →
    (∃ id < emission.state.storage.vars.length,
      (emission.state.storage.get id).address = address) ∨ cells address

theorem Emission.Guarded.mono {cells cells' : UInt8 → Prop} {emission : Emission}
    (h : emission.Guarded cells) (hcells : ∀ address, cells address → cells' address) :
    emission.Guarded cells' :=
  ⟨h.turns, fun r address hitem => (h.stores r address hitem).imp_right (hcells address)⟩

namespace Build

variable {α β : Type} {cells : UInt8 → Prop} {state : BuildState}

/-- Whether it succeeds or not, a step takes nothing back and all that it puts out is guarded; if it
succeeds, `ok` holds of its result and the state reached. -/
structure Guards (cells : UInt8 → Prop) (action : Build α) (state : BuildState)
    (ok : α → BuildState → Prop) : Prop where
  later : state.Later (action.run state).state
  emissions : ∀ emission, .code emission ∈ (action.run state).output →
    emission.Guarded cells ∧ emission.state.Later (action.run state).state
  ok : ∀ a, (action.run state).result = .ok a → ok a (action.run state).state

/-! ## Steps -/

namespace Guards

theorem bind {action : Build α} {next : α → Build β} {mid : α → BuildState → Prop}
    {ok : β → BuildState → Prop} (h : Guards cells action state mid)
    (hnext : ∀ a s, state.Later s → mid a s → Guards cells (next a) s ok) :
    Guards cells (action >>= next) state ok := by
  obtain ⟨hlater, hout, hmid⟩ := h
  rcases hrun : action.run state with ⟨error | a, s, output⟩
  · rw [hrun] at hlater hout
    -- The first part fails, and nothing follows.
    have hall : (action >>= next).run state = ⟨.error error, s, output⟩ := by
      rw [Action.run_bind, hrun, Outcome.andThen_error]
    refine ⟨?_, ?_, fun b hb => ?_⟩
    · rw [hall]
      exact hlater
    · rw [hall]
      exact hout
    · rw [hall] at hb
      cases hb
  · rw [hrun] at hlater hout hmid
    obtain ⟨hlater', hout', hok⟩ := hnext a s hlater (hmid a rfl)
    have hall : (action >>= next).run state = ⟨((next a).run s).result, ((next a).run s).state,
        output ++ ((next a).run s).output⟩ := by
      rw [Action.run_bind, hrun, Outcome.andThen_ok]
    refine ⟨?_, fun emission hmem => ?_, fun b hb => ?_⟩
    · rw [hall]
      exact hlater.trans hlater'
    · rw [hall] at hmem ⊢
      rcases List.mem_append.1 hmem with hmem | hmem
      · exact ⟨(hout emission hmem).1, (hout emission hmem).2.trans hlater'⟩
      · exact hout' emission hmem
    · rw [hall] at hb ⊢
      exact hok b hb

theorem imp {action : Build α} {ok ok' : α → BuildState → Prop} (h : Guards cells action state ok)
    (himp : ∀ a s, ok a s → ok' a s) : Guards cells action state ok' :=
  ⟨h.later, h.emissions, fun a ha => himp _ _ (h.ok a ha)⟩

theorem silent {action : Build α} {ok : α → BuildState → Prop}
    (hout : (action.run state).output = []) (hlater : state.Later (action.run state).state)
    (hok : ∀ a, (action.run state).result = .ok a → ok a (action.run state).state) :
    Guards cells action state ok := by
  refine ⟨hlater, fun emission hmem => ?_, hok⟩
  rw [hout] at hmem
  cases hmem

theorem pure {ok : α → BuildState → Prop} {a : α} (h : ok a state) :
    Guards cells (Pure.pure a) state ok := by
  refine .silent rfl (.refl state) fun b hb => ?_
  cases hb
  exact h

theorem fail {ok : α → BuildState → Prop} (error : CompileError) :
    Guards cells (Action.fail error) state ok :=
  .silent rfl (.refl state) fun _ hb => (by cases hb)

theorem ofExcept {ok : α → BuildState → Prop} {result : Except CompileError α}
    (h : ∀ a, result = .ok a → ok a state) : Guards cells (Action.ofExcept result) state ok :=
  .silent rfl (.refl state) h

theorem get {next : BuildState → Build α} {ok : α → BuildState → Prop}
    (h : Guards cells (next state) state ok) : Guards cells (Action.get >>= next) state ok := by
  have hall : (Action.get >>= next).run state = (next state).run state := by
    rw [Action.run_bind, Action.run_get, Outcome.andThen_ok_nil]
  refine ⟨?_, ?_, ?_⟩
  · rw [hall]
    exact h.later
  · rw [hall]
    exact h.emissions
  · rw [hall]
    exact h.ok

theorem modify_last {change : BuildState → BuildState} {ok : Unit → BuildState → Prop}
    (hlater : state.Later (change state)) (h : ok () (change state)) :
    Guards cells (Action.modify change) state ok :=
  .silent rfl hlater fun _ _ => h

theorem modify {change : BuildState → BuildState} {next : Build α} {ok : α → BuildState → Prop}
    (hlater : state.Later (change state)) (hstorage : (change state).storage = state.storage)
    (h : ∀ s, s.storage = state.storage → Guards cells next s ok) :
    Guards cells (Action.modify change >>= fun _ => next) state ok := by
  have hmodify : Guards cells (Action.modify change) state fun _ s => s.storage = state.storage :=
    .modify_last hlater hstorage
  exact hmodify.bind fun _ s _ hs => h s hs

theorem ite {condition : Prop} [Decidable condition] {yes no : Build α}
    {ok : α → BuildState → Prop} (hyes : condition → Guards cells yes state ok)
    (hno : ¬ condition → Guards cells no state ok) :
    Guards cells (if condition then yes else no) state ok := by
  split
  · next h => exact hyes h
  · next h => exact hno h

theorem forM {items : List β} {action : β → Build PUnit} (kept : BuildState → Prop)
    (hstate : kept state) (h : ∀ item s, state.Later s → kept s →
      Guards cells (action item) s fun _ s' => kept s') :
    Guards cells (items.forM action) state fun _ s => kept s := by
  induction items generalizing state with
  | nil => exact .pure hstate
  | cons item items ih =>
    refine (h item state (.refl state) hstate).bind fun _ s hlater hs => ?_
    exact ih hs fun item' s' hlater' => h item' s' (hlater.trans hlater')

end Guards

/-! ## Putting out items -/

theorem guards_emit {item : Item} (h : Emission.Guarded cells ⟨state, item, .statement⟩) :
    Guards cells (emit item) state fun _ s => s.storage = state.storage := by
  refine ⟨⟨Nat.le_refl _, Nat.le_refl _, fun h => h⟩, fun emission hmem => ?_, fun _ _ => rfl⟩
  have hcode : BuildEvent.code emission ∈ [BuildEvent.code ⟨state, item, .statement⟩] := hmem
  obtain rfl : emission = ⟨state, item, .statement⟩ := by simpa using hcode
  exact ⟨h, Nat.le_refl _, Nat.le_refl _, fun h => h⟩

theorem guards_plain {item : Item} (hturns : ¬ item.Turns)
    (hstores : ∀ r address, item = .instruction (.store r address) → cells address) :
    Guards cells (emit item) state fun _ s => s.storage = state.storage :=
  guards_emit ⟨fun h => absurd h hturns, fun r address h => .inr (hstores r address h)⟩

theorem guards_instruct {i : Instruction} (h : ∀ r address, i ≠ .store r address) :
    Guards cells (instruct i) state fun _ s => s.storage = state.storage :=
  guards_plain (fun hturns => hturns)
    fun r address heq => absurd (Item.instruction.inj heq) (h r address)

/-- An item that needs a settled storage, or no particular one. -/
theorem guards_turn {item : Item} (hitem : ∀ i, item ≠ .instruction i)
    (h : state.storage.Settled) :
    Guards cells (emit item) state fun _ s => s.storage = state.storage :=
  guards_emit ⟨fun _ => h, fun _ _ heq => absurd heq (hitem _)⟩

theorem guards_emitAll {items : List Item} (hitems : ∀ item ∈ items, ∀ i, item ≠ .instruction i)
    (h : state.storage.Settled) :
    Guards cells (emitAll items) state fun _ s => s.storage = state.storage := by
  induction items generalizing state with
  | nil => exact .pure rfl
  | cons item items ih =>
    refine (guards_turn (hitems item (List.mem_cons_self ..)) h).bind fun _ s _ hs => ?_
    refine (ih (fun other hother => hitems other (List.mem_cons_of_mem _ hother)) ?_).imp
      fun _ s' hs' => hs'.trans hs
    rw [hs]
    exact h

theorem guards_storing {operation : StorageM α} {ok : α → BuildState → Prop}
    (hvars : state.storage.vars.length ≤ (operation.run state.storage).state.vars.length)
    (hslots : ∀ r address,
      Instruction.store r address ∈ Storage.code (operation.run state.storage).output →
      ∃ id < state.storage.vars.length, (state.storage.get id).address = address)
    (hok : ∀ a s, (operation.run state.storage).result = .ok a →
      s.storage = (operation.run state.storage).state → ok a s) :
    Guards cells (storing operation) state ok := by
  refine ⟨⟨hvars, Nat.le_refl _, fun h => h⟩, fun emission hmem => ?_, fun a ha => ?_⟩
  · obtain ⟨event, hevent, heq⟩ := List.mem_map.1 hmem
    cases event with
    | note n => cases heq
    | code i =>
      cases heq
      refine ⟨⟨fun hturns => hturns.elim, fun r address hi => .inl (hslots r address ?_)⟩,
        hvars, Nat.le_refl _, fun h => h⟩
      cases hi
      exact List.mem_filterMap.2 ⟨_, hevent, rfl⟩
  · refine hok a _ ?_ rfl
    have hresult : (operation.run state.storage).result.mapError CompileError.storage = .ok a := ha
    cases hop : (operation.run state.storage).result with
    | ok b =>
      rw [hop] at hresult
      cases hresult
      rfl
    | error error =>
      rw [hop] at hresult
      cases hresult

theorem guards_moving {operation : StorageM α} {ok : α → BuildState → Prop}
    (hmoves : Moves state.storage (Storage.code (operation.run state.storage).output)
      (operation.run state.storage).state)
    (hok : ∀ a s, s.storage.Housed → (operation.run state.storage).result = .ok a →
      s.storage = (operation.run state.storage).state → ok a s) :
    Guards cells (storing operation) state ok := by
  refine guards_storing (Nat.le_of_eq hmoves.same.length_eq.symm) hmoves.slots fun a s ha hs => ?_
  refine hok a s ?_ ha hs
  rw [hs]
  exact hmoves.housed

theorem guards_flush (h : state.storage.Housed) :
    Guards cells flush state fun _ s => s.storage.Housed ∧ s.storage.Loose := by
  obtain ⟨after, events, hrun, hmoves, hloose, -⟩ := Storage.moves_flush h
  refine guards_moving (by rw [hrun]; exact hmoves) fun _ s hs _ heq => ⟨hs, ?_⟩
  rw [heq, hrun]
  exact hloose

theorem guards_pick (h : state.storage.Housed) (start : Nat) :
    Guards cells (storing (Storage.pick start)) state fun _ s =>
      s.storage.Housed ∧ (state.storage.Loose → s.storage.Loose) := by
  obtain ⟨hmoves, hloose⟩ := Storage.moves_pick h start
  refine guards_moving hmoves fun _ s hs _ heq => ⟨hs, ?_⟩
  rw [heq]
  exact hloose

theorem guards_scratch (h : state.storage.Housed) :
    Guards cells (storing Storage.scratch) state fun _ s => s.storage.Housed :=
  guards_moving (Storage.moves_scratch h) fun _ _ hs _ _ => hs

theorem guards_markModified {id : VarId} (h : state.storage.Housed)
    (hid : (state.storage.get id).register ≠ none) :
    Guards cells (storing (Storage.markModified id)) state fun _ s => s.storage.Housed := by
  have hrun : (Storage.markModified id).run state.storage =
      ⟨.ok (), state.storage.update id fun var => { var with modified := true }, []⟩ := rfl
  refine guards_storing ?_ ?_ fun _ s _ hs => ?_
  · exact Nat.le_of_eq (by rw [hrun, Storage.length_update])
  · rw [hrun]
    exact fun _ _ hno => by cases hno
  · rw [hs, hrun]
    exact h.markModified hid

theorem guards_namedLabel (name : String) :
    Guards cells (namedLabel name) state fun _ s => s.storage = state.storage :=
  .get (.modify ⟨Nat.le_refl _, Nat.le_refl _, fun h => h.named name⟩ rfl fun _ hs => .pure hs)

theorem guards_blockName (keyword : String) :
    Guards cells (blockName keyword) state fun _ s => s.storage = state.storage :=
  .get (.modify ⟨Nat.le_refl _, Nat.le_refl _, fun h => h⟩ rfl fun _ hs => .pure hs)

theorem guards_openBlock (block : Block) (line : Nat) (h : state.storage.Settled) :
    Guards cells (openBlock block line) state fun _ s => s.storage = state.storage :=
  (guards_turn (fun _ hi => by cases hi) h).bind fun _ _ _ hs =>
    .modify_last ⟨Nat.le_refl _, Nat.le_refl _, fun h => h⟩ hs

/-! ## Operands -/

theorem guards_referent (operand : Operand) :
    Guards cells (referent operand) state fun r s =>
      s = state ∧ r.InRange state.storage ∧
        Referent.ofOperand state.storage state.current operand = .ok r :=
  .get (.ofExcept fun _ hr => ⟨rfl, Referent.inRange_ofOperand hr, hr⟩)

theorem guards_registerOf (id : VarId) :
    Guards cells (registerOf id) state fun r s =>
      s = state ∧ r = (state.storage.get id).register :=
  .get (.pure ⟨rfl, rfl⟩)

theorem guards_bind {id : VarId} (h : state.storage.Housed) (hid : id < state.storage.vars.length)
    (register : Register) :
    Guards cells (storing (Storage.bind id register true)) state fun _ s =>
      s.storage.Housed ∧ (s.storage.get id).register ≠ none := by
  obtain ⟨hmoves, hbound⟩ := Storage.moves_bind h hid register
  refine guards_moving hmoves fun _ s hs hok heq => ⟨hs, ?_⟩
  rw [heq, hbound hok]
  exact fun hno => by cases hno

theorem guards_keep {id : VarId} (h : state.storage.Housed) (hid : id < state.storage.vars.length)
    (register : Register) :
    Guards cells (storing (Storage.load id register true)) state fun _ s =>
      s.storage.Housed ∧ (s.storage.get id).register ≠ none := by
  obtain ⟨hmoves, hbound, -⟩ := Storage.moves_load h hid register true
  refine guards_moving hmoves fun _ s hs hok heq => ⟨hs, ?_⟩
  rw [heq, hbound hok rfl]
  exact fun hno => by cases hno

theorem guards_operandRegister {r : Referent} (h : state.storage.Housed)
    (hin : r.InRange state.storage) :
    Guards cells (operandRegister r) state fun _ s => s.storage.Housed := by
  have hvalue : ∀ load : Register → Instruction, (∀ register r a, load register ≠ .store r a) →
      Guards cells (do
        let register ← storing Storage.scratch
        instruct (load register)
        return register) state fun _ s => s.storage.Housed := by
    intro load hload
    refine (guards_scratch h).bind fun register s _ hs => ?_
    exact (guards_instruct (hload register)).bind fun _ s' _ hs' => .pure (by rw [hs']; exact hs)
  rcases r with ⟨id⟩ | ⟨register⟩ | ⟨address⟩ | ⟨address⟩ | ⟨value⟩
  · refine (guards_registerOf id).bind fun found s _ hs => ?_
    obtain ⟨rfl, rfl⟩ := hs
    cases (s.storage.get id).register with
    | some register => exact (guards_bind h hin register).bind fun _ _ _ hs => .pure hs.1
    | none =>
      refine (guards_pick h 1).bind fun register s hlater hs => ?_
      exact (guards_keep hs.1 (hlater.inRange hin) register).bind fun _ _ _ hs' => .pure hs'.1
  · exact .pure h
  · exact hvalue _ fun _ _ _ hi => by cases hi
  · exact hvalue _ fun _ _ _ hi => by cases hi
  · exact hvalue _ fun _ _ _ hi => by cases hi

/-- A copy leaves registers that are no variable's so; only a variable needs the storage for it. -/
theorem guards_copyInto {r : Referent} (h : state.storage.Housed) (hin : r.InRange state.storage)
    (register : Register) :
    Guards cells (copyInto r register) state fun _ s =>
      s.storage.Housed ∧ (state.storage.Loose → s.storage.Loose) ∧
        (r.isRegistered = false → s.storage = state.storage) := by
  have hsame : ∀ s : BuildState, s.storage = state.storage → s.storage.Housed ∧
      (state.storage.Loose → s.storage.Loose) ∧
        (r.isRegistered = false → s.storage = state.storage) := by
    intro s hs
    rw [hs]
    exact ⟨h, fun loose => loose, fun _ => rfl⟩
  rcases r with ⟨id⟩ | ⟨source⟩ | ⟨address⟩ | ⟨address⟩ | ⟨value⟩
  · obtain ⟨hmoves, -, hloose⟩ := Storage.moves_load h hin register false
    refine guards_moving hmoves fun _ s hs _ heq => ⟨hs, fun loose => ?_, fun hno => by cases hno⟩
    rw [heq]
    exact hloose rfl loose
  · exact .ite (fun _ => .pure (hsame state rfl))
      fun _ => (guards_instruct fun _ _ hi => by cases hi).imp fun _ => hsame
  all_goals exact (guards_instruct fun _ _ hi => by cases hi).imp fun _ => hsame

theorem guards_bindForWrite {id : VarId} (h : state.storage.Housed)
    (hid : id < state.storage.vars.length) (keep : Bool) :
    Guards cells (bindForWrite id keep) state fun _ s =>
      s.storage.Housed ∧ (s.storage.get id).register ≠ none := by
  refine (guards_registerOf id).bind fun found s _ hs => ?_
  obtain ⟨rfl, rfl⟩ := hs
  cases (s.storage.get id).register with
  | some register => exact (guards_bind h hid register).bind fun _ _ _ hs => .pure hs
  | none =>
    refine (guards_pick h 1).bind fun register s hlater hs => ?_
    have hid' := Nat.lt_of_lt_of_le hid hlater.vars
    cases keep with
    | true => exact (guards_keep hs.1 hid' register).bind fun _ _ _ hs' => .pure hs'
    | false => exact (guards_bind hs.1 hid' register).bind fun _ _ _ hs' => .pure hs'

theorem guards_resolve (update : Update) :
    Guards cells (resolve update) state fun computation s =>
      s = state ∧ ∀ r ∈ computation.operands, r.InRange state.storage := by
  cases update with
  | set source =>
    refine (guards_referent source).bind fun r s _ hr => .pure ?_
    exact ⟨hr.1, by simpa [Computation.operands] using hr.2.1⟩
  | combine left op right =>
    refine (guards_referent left).bind fun l s _ hl => ?_
    obtain ⟨rfl, hinl, -⟩ := hl
    refine (guards_referent right).bind fun r s' _ hr => .pure ?_
    exact ⟨hr.1, by simpa [Computation.operands] using ⟨hinl, hr.2.1⟩⟩
  | compound op source =>
    refine (guards_referent source).bind fun r s _ hr => .pure ?_
    exact ⟨hr.1, by simpa [Computation.operands] using hr.2.1⟩

theorem guards_reserveAll (h : state.storage.Housed) (referents : List Referent) :
    Guards cells (referents.forM reserveNamed) state fun _ s =>
      s.storage.Housed ∧ (state.storage.Loose → s.storage.Loose) := by
  refine .forM (fun s => s.storage.Housed ∧ (state.storage.Loose → s.storage.Loose))
    ⟨h, fun loose => loose⟩ fun r s _ hs => ?_
  rcases r with ⟨id⟩ | ⟨register⟩ | ⟨address⟩ | ⟨address⟩ | ⟨value⟩
  · exact .pure hs
  · obtain ⟨hmoves, hloose⟩ := Storage.moves_reserve hs.1 register
    refine guards_moving hmoves fun _ s' hs' _ heq => ⟨hs', fun loose => ?_⟩
    rw [heq]
    exact hloose (hs.2 loose)
  all_goals exact .pure hs

/-! ## Assignments and conditions -/

/-- A computation ends with what its target needs: its last steps leave the storage alone. -/
theorem guards_compute {computation : Computation} {target : Bool → Build Register}
    (kept : Storage → Prop) (h : state.storage.Housed)
    (hin : ∀ r ∈ computation.operands, r.InRange state.storage)
    (htarget : ∀ keep s, state.Later s → s.storage.Housed →
      Guards cells (target keep) s fun _ s' => s'.storage.Housed ∧ kept s'.storage) :
    Guards cells (compute computation target) state fun _ s => s.storage.Housed ∧ kept s.storage := by
  -- No operation is a store, so the target decides what the storage has to be like.
  have hoperation : ∀ op dest left right r address,
      operation op dest left right ≠ .store r address := by
    intro op dest left right r address
    cases op <;> exact fun hi => by cases hi
  cases computation with
  | set source =>
    have hsource := hin source (List.mem_singleton_self source)
    refine .ite (fun _ => ?_) fun hplain => ?_
    · refine (guards_operandRegister h hsource).bind fun register s hlater hs => ?_
      refine (htarget false s hlater hs).bind fun dest s' _ hs' => ?_
      refine .ite (fun _ => .pure hs') fun _ => ?_
      exact (guards_instruct fun _ _ hi => by cases hi).bind
        fun _ _ _ heq => .pure (by rw [heq]; exact hs')
    · refine (htarget false state (.refl state) h).bind fun dest s hlater hs => ?_
      refine (guards_copyInto hs.1 (hlater.inRange hsource) dest).bind fun _ s' _ hs' => .pure ?_
      rw [hs'.2.2 (by simpa using hplain)]
      exact hs
  | combine left op right =>
    have hleft := hin left (by simp [Computation.operands])
    have hright := hin right (by simp [Computation.operands])
    refine (guards_operandRegister h hleft).bind fun a s hlater hs => ?_
    refine (guards_operandRegister hs (hlater.inRange hright)).bind fun b s₁ hlater₁ hs₁ => ?_
    refine (htarget false s₁ (hlater.trans hlater₁) hs₁).bind fun dest s₂ _ hs₂ => ?_
    exact (guards_instruct (hoperation op dest a b)).bind
      fun _ _ _ heq => .pure (by rw [heq]; exact hs₂)
  | compound op source =>
    refine (guards_operandRegister h (hin source (List.mem_singleton_self source))).bind
      fun b s hlater hs => ?_
    refine (htarget true s hlater hs).bind fun dest s₁ _ hs₁ => ?_
    exact (guards_instruct (hoperation op dest dest b)).bind
      fun _ _ _ heq => .pure (by rw [heq]; exact hs₁)

theorem guards_computeCell {computation : Computation} {load : Register → Instruction}
    (h : state.storage.Housed) (hin : ∀ r ∈ computation.operands, r.InRange state.storage)
    (hload : ∀ register r address, load register ≠ .store r address) :
    Guards cells (computeCell computation load) state fun _ s => s.storage.Housed := by
  have htarget : ∀ keep s, state.Later s → s.storage.Housed →
      Guards cells (cellTarget load keep) s fun _ s' => s'.storage.Housed ∧ True := by
    intro keep s _ hs
    refine (guards_scratch hs).bind fun register s' _ hs' => ?_
    cases keep with
    | true =>
      exact (guards_instruct (hload register)).bind
        fun _ _ _ heq => .pure ⟨by rw [heq]; exact hs', trivial⟩
    | false => exact .pure ⟨hs', trivial⟩
  unfold computeCell
  split
  · exact guards_operandRegister h (hin _ (List.mem_singleton_self _))
  · exact (guards_compute (fun _ => True) h hin htarget).imp fun _ _ hs => hs.1

/-- An assignment stores to the cell that it names. -/
theorem guards_assign {dest : Referent} (h : state.storage.Housed)
    (hdest : dest.InRange state.storage) (hcell : ∀ address, dest = .memory address → cells address)
    (update : Update) :
    Guards cells (assign dest update) state fun _ s => s.storage.Housed := by
  refine (guards_resolve update).bind fun computation s _ hs => ?_
  obtain ⟨rfl, hin⟩ := hs
  refine (guards_reserveAll h _).bind fun _ s hlater hs => ?_
  have hin' := fun r hr => hlater.inRange (hin r hr)
  rcases dest with ⟨id⟩ | ⟨register⟩ | ⟨address⟩ | ⟨address⟩ | ⟨value⟩
  · refine (guards_compute (fun storage => (storage.get id).register ≠ none) hs.1 hin'
      fun keep s' hlater' hs' => guards_bindForWrite hs'
        (Nat.lt_of_lt_of_le hdest (hlater.trans hlater').vars) keep).bind fun _ s' _ hs' => ?_
    exact guards_markModified hs'.1 hs'.2
  · exact (guards_compute (fun _ => True) hs.1 hin' fun _ _ _ hs' => .pure ⟨hs', trivial⟩).bind
      fun _ _ _ hs' => .pure hs'.1
  · refine (guards_computeCell hs.1 hin' fun _ _ _ hi => by cases hi).bind fun register s' _ hs' => ?_
    refine Guards.imp (guards_plain (fun hturns => hturns) fun r a hi => ?_) fun _ _ heq => ?_
    · cases hi
      exact hcell address rfl
    · rw [heq]
      exact hs'
  · refine (guards_computeCell hs.1 hin' fun _ _ _ hi => by cases hi).bind fun register s' _ hs' => ?_
    exact (guards_instruct fun _ _ hi => by cases hi).imp fun _ _ heq => by rw [heq]; exact hs'
  · exact .fail _

/-- A side of a condition gets a register without becoming a variable's. -/
theorem guards_side {r : Referent} (h : state.storage.Housed) (loose : state.storage.Loose)
    (hin : r.InRange state.storage) :
    Guards cells (do
        let register ← storing (Storage.pick 1)
        copyInto r register
        return register) state (fun _ s => s.storage.Housed ∧ s.storage.Loose) ∧
      Guards cells (do
        copyInto r 0
        return (0 : Register)) state fun _ s => s.storage.Housed ∧ s.storage.Loose := by
  constructor
  · refine (guards_pick h 1).bind fun register s hlater hs => ?_
    exact (guards_copyInto hs.1 (hlater.inRange hin) register).bind
      fun _ _ _ hs' => .pure ⟨hs'.1, hs'.2.1 (hs.2 loose)⟩
  · exact (guards_copyInto h hin 0).bind fun _ _ _ hs => .pure ⟨hs.1, hs.2.1 loose⟩

theorem guards_leftRegister {left right : Referent} (h : state.storage.Housed)
    (loose : state.storage.Loose) (hin : left.InRange state.storage) :
    Guards cells (leftRegister left right) state fun _ s =>
      s.storage.Housed ∧ s.storage.Loose := by
  unfold leftRegister
  split
  · exact .pure ⟨h, loose⟩
  · exact .ite (fun _ => (guards_side h loose hin).1) fun _ => (guards_side h loose hin).2

theorem guards_rightRegister {first : Register} {right : Referent} (h : state.storage.Housed)
    (loose : state.storage.Loose) (hin : right.InRange state.storage) :
    Guards cells (rightRegister first right) state fun _ s =>
      s.storage.Housed ∧ s.storage.Loose := by
  unfold rightRegister
  split
  · exact .pure ⟨h, loose⟩
  · exact .ite (fun _ => (guards_side h loose hin).1) fun _ => (guards_side h loose hin).2

theorem guards_compare (h : state.storage.Housed) (loose : state.storage.Loose)
    (condition : Condition) (accept reject : Target) (line : Nat) :
    Guards cells (compare condition accept reject line) state fun _ s =>
      s.storage.Housed ∧ s.storage.Loose := by
  refine (guards_referent _).bind fun left s _ hleft => ?_
  obtain ⟨rfl, hinl, -⟩ := hleft
  refine (guards_referent _).bind fun right s _ hright => ?_
  obtain ⟨rfl, hinr, -⟩ := hright
  refine .ite (fun _ => .fail _) fun _ => ?_
  refine (guards_reserveAll h _).bind fun _ s hlater hs => ?_
  refine (guards_leftRegister hs.1 (hs.2 loose) (hlater.inRange hinl)).bind
    fun first s₁ hlater₁ hs₁ => ?_
  refine (guards_rightRegister hs₁.1 hs₁.2 ((hlater.trans hlater₁).inRange hinr)).bind
    fun second s₂ _ hs₂ => ?_
  have htest : ∀ s comparison register, s.storage = s₂.storage →
      Guards cells (emit (.compare comparison register accept reject line)) s fun _ s' =>
        s'.storage.Housed ∧ s'.storage.Loose := by
    intro s comparison register hs
    refine (guards_turn (fun _ hi => by cases hi) ?_).imp fun _ s' hs' => ?_
    · rw [hs]
      exact hs₂.1.settled hs₂.2
    · rw [hs', hs]
      exact hs₂
  refine .ite (fun _ => htest s₂ _ _ rfl) fun _ => .ite (fun _ => htest s₂ _ _ rfl) fun _ => ?_
  exact (guards_instruct fun _ _ hi => by cases hi).bind fun _ s₃ _ hs₃ => htest s₃ _ _ hs₃

/-! ## Calls -/

/-- The value of an operand is put somewhere by one instruction that is no store. -/
theorem guards_withOperand (h : state.storage.Housed) (operand : Operand)
    {use : Register → Instruction} (huse : ∀ register r address, use register ≠ .store r address) :
    Guards cells (do
        let value ← referent operand
        let register ← operandRegister value
        instruct (use register)) state fun _ s => s.storage.Housed := by
  refine (guards_referent operand).bind fun value s _ hvalue => ?_
  obtain ⟨rfl, hin, -⟩ := hvalue
  refine (guards_operandRegister h hin).bind fun register s _ hs => ?_
  exact (guards_instruct (huse register)).imp fun _ _ heq => by rw [heq]; exact hs

theorem guards_write (h : state.storage.Housed) (operand : Operand) :
    Guards cells (write operand) state fun _ s => s.storage.Housed := by
  unfold write
  split
  · exact guards_withOperand h _ fun _ _ _ hi => by cases hi
  · refine .ite (fun _ => .fail _) fun _ => (guards_scratch h).bind fun register s _ hs => ?_
    refine .forM (fun s => s.storage.Housed) hs fun byte s' _ hs' => ?_
    refine (guards_instruct fun _ _ hi => by cases hi).bind fun _ s₁ _ hs₁ => ?_
    exact (guards_instruct fun _ _ hi => by cases hi).imp fun _ _ heq => by rw [heq, hs₁]; exact hs'
  · exact guards_withOperand h _ fun _ _ _ hi => by cases hi

theorem guards_rotate (h : state.storage.Housed) (target amount : Operand) :
    Guards cells (rotate target amount) state fun _ s => s.storage.Housed := by
  refine (guards_referent target).bind fun r s _ hr => ?_
  obtain ⟨rfl, hin, -⟩ := hr
  split
  · have hamount : Guards cells (rotateAmount amount) s fun _ s' => s' = s := by
      refine (guards_referent amount).bind fun r s _ hr => ?_
      obtain ⟨rfl, -⟩ := hr
      split
      · exact .ite (fun _ => .pure rfl) fun _ => .fail _
      · exact .fail _
    refine hamount.bind fun amount s _ hs => ?_
    subst hs
    refine (guards_bindForWrite h hin true).bind fun register s _ hs => ?_
    refine (guards_instruct fun _ _ hi => by cases hi).bind fun _ s' _ heq => ?_
    exact guards_markModified (by rw [heq]; exact hs.1) (by rw [heq]; exact hs.2)
  · exact .fail _

theorem guards_popInto (h : state.storage.Housed) (operand : Operand) :
    Guards cells (popInto operand) state fun _ s => s.storage.Housed := by
  refine (guards_referent operand).bind fun r s _ hr => ?_
  obtain ⟨rfl, hin, -⟩ := hr
  split
  · refine (guards_bindForWrite h hin false).bind fun register s _ hs => ?_
    refine (guards_markModified hs.1 hs.2).bind fun _ s' _ hs' => ?_
    exact (guards_instruct fun _ _ hi => by cases hi).imp fun _ _ heq => by rw [heq]; exact hs'
  · obtain ⟨hmoves, -⟩ := Storage.moves_reserve h _
    refine Guards.bind (guards_moving hmoves fun _ _ hs _ _ => hs) fun _ s _ hs => ?_
    exact (guards_instruct fun _ _ hi => by cases hi).imp fun _ _ heq => by rw [heq]; exact hs
  · exact .fail _

theorem guards_flushEmit (h : state.storage.Housed) {item : Item}
    (hitem : ∀ i, item ≠ .instruction i) :
    Guards cells (do flush; emit item) state fun _ s => s.storage.Housed := by
  refine (guards_flush h).bind fun _ s _ hs => ?_
  exact (guards_turn hitem (hs.1.settled hs.2)).imp fun _ _ heq => by rw [heq]; exact hs.1

theorem guards_call (h : state.storage.Housed) (name : String) (arguments : List Operand)
    (line : Nat) : Guards cells (call name arguments line) state fun _ s => s.storage.Housed := by
  unfold call
  split
  · unfold callBuiltin
    split
    · exact guards_write h _
    · exact guards_rotate h _ _
    · exact guards_withOperand h _ fun _ _ _ hi => by cases hi
    · exact guards_popInto h _
    · exact .fail _
  · refine .get ?_
    split
    · exact .fail _
    · exact .ite (fun _ => guards_flushEmit h fun _ hi => by cases hi) fun _ => .fail _

/-! ## Statements -/

theorem guards_storingDeclare (h : state.storage.Housed) (name : String)
    (hfind : state.storage.find? name state.current = none) :
    Guards cells (storing (Storage.declare name state.current state.codeSize)) state
      fun id s => s.storage.Housed ∧ id < s.storage.vars.length := by
  rcases (Storage.run_declare hfind : (∃ note, _ ∧
      (Storage.declare name state.current state.codeSize).run _ = _) ∨ _) with
    ⟨note, room, hrun⟩ | hrun
  · refine guards_storing ?_ ?_ fun id s hid hs => ?_
    · rw [hrun, Storage.length_extended]
      exact Nat.le_succ _
    · rw [hrun]
      exact fun _ _ hno => by cases hno
    · rw [hrun] at hid hs
      cases hid
      rw [hs, Storage.length_extended]
      exact ⟨h.extended hfind room, Nat.lt_succ_self _⟩
  · refine guards_storing ?_ ?_ fun id s hid _ => ?_
    · exact Nat.le_of_eq (by rw [hrun])
    · rw [hrun]
      exact fun _ _ hno => by cases hno
    · rw [hrun] at hid
      cases hid

theorem guards_declare (h : state.storage.Housed) (name : String) (value : Option Operand)
    (line : Nat) : Guards cells (declare name value line) state fun _ s => s.storage.Housed := by
  have hassign : ∀ s id update, s.storage.Housed → id < s.storage.vars.length →
      Guards cells (assign (.variable id) update) s fun _ s' => s'.storage.Housed := by
    intro s id update hs hid
    have hin : (Referent.variable id).InRange s.storage := hid
    exact guards_assign hs hin (fun _ heq => by cases heq) update
  refine .get ?_
  split
  · next hfind =>
    refine (guards_storingDeclare h name hfind).bind fun id s _ hs =>
      .modify ⟨Nat.le_refl _, Nat.le_refl _, fun h => h⟩ rfl fun s' heq => ?_
    rw [← heq] at hs
    split
    · exact hassign s' id _ hs.1 hs.2
    · exact .modify_last ⟨Nat.le_refl _, Nat.le_refl _, fun h => h⟩ hs.1
  · exact .fail _
  · next id value hfind =>
    refine .ite (fun _ => ?_) fun _ => .fail _
    refine .modify ⟨Nat.le_refl _, Nat.le_refl _, fun h => h⟩ rfl fun s heq => ?_
    have hid := Referent.lt_of_find? hfind
    rw [← heq] at h hid
    exact hassign s id _ h hid

theorem guards_entry (h : state.storage.Housed) (loose : state.storage.Loose)
    (condition : Condition) (reject : LabelId) (block : Block) (line : Nat) :
    Guards cells (do
        compare condition .next (.label reject) line
        openBlock block line) state fun _ s => s.storage.Housed := by
  refine (guards_compare h loose condition _ _ line).bind fun _ s _ hs => ?_
  exact (guards_openBlock block line (hs.1.settled hs.2)).imp
    fun _ _ heq => by rw [heq]; exact hs.1

theorem guards_openBranch (h : state.storage.Housed) (condition : Condition) (line : Nat) :
    Guards cells (openBranch condition line) state fun _ s => s.storage.Housed := by
  refine (guards_flush h).bind fun _ s _ hs => ?_
  refine (guards_blockName "if").bind fun name s₁ _ hs₁ => .get ?_
  refine .modify ⟨Nat.le_refl _, Nat.le_refl _, fun h => ((h.add rfl).add rfl).add rfl⟩ rfl
    fun s₂ hs₂ => ?_
  rw [← hs₁, ← hs₂] at hs
  exact guards_entry hs.1 hs.2 condition _ _ line

theorem guards_openLoop (h : state.storage.Housed) (condition : Condition) (line : Nat) :
    Guards cells (openLoop condition line) state fun _ s => s.storage.Housed := by
  refine (guards_flush h).bind fun _ s _ hs => ?_
  refine (guards_blockName "while").bind fun name s₁ _ hs₁ => .get ?_
  refine .modify ⟨Nat.le_refl _, Nat.le_refl _, fun h => ((h.add rfl).add rfl).add rfl⟩ rfl
    fun s₂ hs₂ => ?_
  rw [← hs₁, ← hs₂] at hs
  refine Guards.bind (guards_turn (fun _ hi => by cases hi) (hs.1.settled hs.2))
    fun _ s₃ _ hs₃ => ?_
  rw [← hs₃] at hs
  exact guards_entry hs.1 hs.2 condition _ _ line

theorem no_instruction_openElse {block other : Block} {line : Nat} {items : List Item}
    (h : block.openElse line = .ok (other, items)) : ∀ item ∈ items, ∀ i, item ≠ .instruction i := by
  unfold Block.openElse at h
  split at h
  · cases h
    simp
  · cases h
  · cases h

theorem no_instruction_close (block : Block) (line : Nat) :
    ∀ item ∈ block.close line, ∀ i, item ≠ .instruction i := by
  unfold Block.close
  split <;> simp

theorem guards_openElse (h : state.storage.Housed) (line : Nat) :
    Guards cells (openElse line) state fun _ s => s.storage.Housed := by
  refine (guards_flush h).bind fun _ s _ hs => .get ?_
  split
  · exact .fail _
  · split
    · exact .fail _
    · next hopen =>
      refine .modify ⟨Nat.le_refl _, Nat.le_refl _, fun h => h⟩ rfl fun s₁ hs₁ => ?_
      rw [← hs₁] at hs
      exact (guards_emitAll (no_instruction_openElse hopen) (hs.1.settled hs.2)).imp
        fun _ _ heq => by rw [heq]; exact hs.1

theorem guards_closeBlock (h : state.storage.Housed) (line : Nat) :
    Guards cells (closeBlock line) state fun _ s => s.storage.Housed := by
  refine (guards_flush h).bind fun _ s _ hs => .get ?_
  split
  · exact .fail _
  · refine .modify ⟨Nat.le_refl _, Nat.le_refl _, fun h => h⟩ rfl fun s₁ hs₁ => ?_
    rw [← hs₁] at hs
    refine (guards_emitAll (no_instruction_close _ line) (hs.1.settled hs.2)).bind
      fun _ s₂ _ hs₂ => ?_
    rw [← hs₂] at hs
    refine .ite (fun _ => ?_) fun _ => .pure hs.1
    exact .modify_last ⟨Nat.le_refl _, Nat.le_refl _, fun h => h⟩ hs.1

theorem guards_defineFunction (h : state.storage.Housed) (name : String) (line : Nat) :
    Guards cells (defineFunction name line) state fun _ s => s.storage.Housed := by
  refine .get (.ite (fun _ => .fail _) fun _ => .ite (fun _ => .fail _) fun _ =>
    .ite (fun _ => .fail _) fun _ => ?_)
  refine (guards_flush h).bind fun _ s _ hs => .get ?_
  refine .modify ⟨Nat.le_refl _, by simp, fun h => (h.add rfl).add rfl⟩ rfl fun s₁ hs₁ => ?_
  rw [← hs₁] at hs
  exact (guards_openBlock _ line (hs.1.settled hs.2)).imp fun _ _ heq => by rw [heq]; exact hs.1

theorem guards_flushNamedEmit (h : state.storage.Housed) (name : String) {item : LabelId → Item}
    (hitem : ∀ id i, item id ≠ .instruction i) :
    Guards cells (do flush; let id ← namedLabel name; emit (item id)) state
      fun _ s => s.storage.Housed := by
  refine (guards_flush h).bind fun _ s _ hs => ?_
  refine (guards_namedLabel name).bind fun id s' _ heq => ?_
  rw [← heq] at hs
  exact (guards_turn (hitem id) (hs.1.settled hs.2)).imp fun _ _ heq' => by rw [heq']; exact hs.1

theorem guards_statement (h : state.storage.Housed) {statement : Statement} (line : Nat)
    (hcells : ∀ dest update address, statement = .assign dest update →
      Referent.ofWord state.storage state.current dest = .ok (.memory address) → cells address) :
    Guards cells (Build.statement statement line) state fun _ s => s.storage.Housed := by
  cases statement with
  | declare name value => exact guards_declare h name value line
  | assign dest update =>
    refine (guards_referent (.word dest)).bind fun r s _ hr => ?_
    obtain ⟨rfl, hin, hof⟩ := hr
    refine guards_assign h hin (fun address heq => ?_) update
    -- Where the destination is a cell, the line names it by its address.
    rw [heq] at hof
    exact hcells dest update address rfl hof
  | ifGoto condition label =>
    refine (guards_flush h).bind fun _ s _ hs => ?_
    refine (guards_namedLabel label).bind fun id s' _ heq => ?_
    rw [← heq] at hs
    exact (guards_compare hs.1 hs.2 condition _ _ line).imp fun _ _ hs' => hs'.1
  | ifBlock condition => exact guards_openBranch h condition line
  | loop condition => exact guards_openLoop h condition line
  | otherwise => exact guards_openElse h line
  | close => exact guards_closeBlock h line
  | function name => exact guards_defineFunction h name line
  | ret =>
    exact .get (.ite (fun _ => .fail _) fun _ => guards_flushEmit h fun _ hi => by cases hi)
  | goto label => exact guards_flushNamedEmit h label fun _ _ hi => by cases hi
  | label label => exact guards_flushNamedEmit h label fun _ _ hi => by cases hi
  | halt =>
    exact (guards_plain (fun hturns => by cases hturns) fun _ _ hi => by cases hi).imp
      fun _ _ heq => by rw [heq]; exact h
  | exit code =>
    refine (guards_instruct fun _ _ hi => by cases hi).bind fun _ s₁ _ hs₁ => ?_
    refine (guards_instruct fun _ _ hi => by cases hi).bind fun _ s₂ _ hs₂ => ?_
    exact (guards_plain (fun hturns => by cases hturns) fun _ _ hi => by cases hi).imp
      fun _ _ heq => by rw [heq, hs₂, hs₁]; exact h
  | call name arguments => exact guards_call h name arguments line

/-- A line, read in a state, assigns to a memory cell that it names by its address. -/
def AssignsCell (state : BuildState) (text : String) (address : UInt8) : Prop :=
  ∃ dest update, Statement.parse text.toList = .ok (some (.assign dest update)) ∧
    Referent.ofWord state.storage state.current dest = .ok (.memory address)

theorem guards_line (h : state.storage.Housed) (text : String) (number : Nat) :
    Guards (AssignsCell state text) (line text number) state fun _ s => s.storage.Housed := by
  unfold line
  split
  · exact .fail _
  · exact .pure h
  · next statement hparse =>
    refine guards_statement h number fun dest update address heq hof => ?_
    rw [heq] at hparse
    exact ⟨dest, update, hparse, hof⟩

end Build

end ByteBasic
