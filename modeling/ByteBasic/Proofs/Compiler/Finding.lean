import ByteBasic.Proofs.Compiler.Accesses

/-!
# Every step finds what it looks up

The steps of compiling, from operands to whole lines: from an anchored state, an attempt finds every
variable and stream that it looks up. What it refers to exists because a word of the source was found
to be its name, and no step in between forgets a variable.

**Theorem (`follows_line`).** From an anchored state, whatever the line, the attempt at compiling it
has the outcome that compiling it has.
-/

namespace ByteBasic.Build

variable {α : Type} {state : BuildState} {id : VarId} {referent : Referent}

/-! ## Assignments -/

theorem follows_fetch (hstate : state.Anchored) (fetch : Register → Instruction) :
    (do
      let register ← moving? Storage.scratch?
      instruct? (fetch register)
      return register : BuildAttempt Register).Follows
    (do
      let register ← storing Storage.scratch
      instruct (fetch register)
      return register) state fun _ s => state.Intact s := by
  refine (follows_moving hstate (Storage.follows_scratch hstate.owners)).bind fun register s hs => ?_
  exact (follows_instruct hs.anchored _).bind fun _ _ hs' => .pure (hs.trans hs')

theorem follows_keep (hstate : state.Anchored) (hid : id < state.storage.vars.length)
    (register : Register) :
    (do
      moving? (Storage.bind? id register true)
      return register : BuildAttempt Register).Follows
    (do
      storing (Storage.bind id register true)
      return register) state fun _ s => state.Intact s :=
  (follows_moving hstate (Storage.follows_bind hstate.owners hid register true)).bind
    fun _ _ hs => .pure hs

theorem follows_pick (hstate : state.Anchored) :
    (moving? (Storage.pick? 1)).Follows (storing (Storage.pick 1)) state
      fun _ s => state.Intact s :=
  follows_moving hstate (Storage.follows_pick hstate.owners 1)

theorem follows_load {before : BuildState} (hs : before.Intact state)
    (hid : id < before.storage.vars.length) (register : Register) (keep : Bool) :
    (moving? (Storage.load? id register keep)).Follows (storing (Storage.load id register keep)) state
      fun _ s => before.Intact s :=
  (follows_moving hs.anchored
    (Storage.follows_load hs.anchored.owners (hs.lt hid) register keep)).imp
      fun _ _ hs' => hs.trans hs'

theorem follows_operandRegister (hstate : state.Anchored) (hin : referent.InRange state.storage) :
    (operandRegister? referent).Follows (operandRegister referent) state
      fun _ s => state.Intact s := by
  refine follows_stream hstate ?_
  rcases referent with ⟨id⟩ | ⟨register⟩ | ⟨address⟩ | ⟨address⟩ | ⟨value⟩
  · refine (follows_registerOf hin).bind ?_
    rintro (_ | register) s rfl
    · refine (follows_pick hstate).bind fun register s hs => ?_
      exact (follows_load hs hin register true).bind fun _ _ hs' => .pure hs'
    · exact follows_keep hstate hin register
  · exact .pure (.refl hstate)
  · exact follows_fetch hstate fun register => .loadMem register.byte address
  · exact follows_fetch hstate fun register => .loadPort register.byte address
  · exact follows_fetch hstate fun register => .load register.byte value

theorem follows_copyInto (hstate : state.Anchored) (hin : referent.InRange state.storage)
    (register : Register) :
    (copyInto? referent register).Follows (copyInto referent register) state
      fun _ s => state.Intact s := by
  refine follows_stream hstate ?_
  rcases referent with ⟨id⟩ | ⟨source⟩ | ⟨address⟩ | ⟨address⟩ | ⟨value⟩
  · exact follows_load (.refl hstate) hin register false
  · exact .ite (fun _ => .pure (.refl hstate)) fun _ => follows_instruct hstate _
  all_goals exact follows_instruct hstate _

theorem follows_bindForWrite (hstate : state.Anchored) (hid : id < state.storage.vars.length)
    (keep : Bool) :
    (bindForWrite? id keep).Follows (bindForWrite id keep) state fun _ s => state.Intact s := by
  refine follows_stream hstate ((follows_registerOf hid).bind ?_)
  rintro (_ | register) s rfl
  · refine (follows_pick hstate).bind fun register s hs => .ite (fun _ => ?_) fun _ => ?_
    · exact (follows_load hs hid register true).bind fun _ _ hs' => .pure hs'
    · exact (follows_keep hs.anchored (hs.lt hid) register).imp fun _ _ hs' => hs.trans hs'
  · exact follows_keep hstate hid register

theorem follows_resolve (update : Update) :
    (resolve? update).Follows (resolve update) state
      fun computation s => s = state ∧ ∀ operand ∈ computation.operands,
        operand.InRange state.storage := by
  rcases update with ⟨source⟩ | ⟨left, op, right⟩ | ⟨op, source⟩
  · refine (follows_referent source).bind ?_
    rintro r s ⟨rfl, hr⟩
    exact .pure ⟨rfl, by simpa [Computation.operands] using hr⟩
  · refine (follows_referent left).bind ?_
    rintro l s ⟨rfl, hl⟩
    refine (follows_referent right).bind ?_
    rintro r s ⟨rfl, hr⟩
    exact .pure ⟨rfl, by simpa [Computation.operands] using ⟨hl, hr⟩⟩
  · refine (follows_referent source).bind ?_
    rintro r s ⟨rfl, hr⟩
    exact .pure ⟨rfl, by simpa [Computation.operands] using hr⟩

theorem follows_reserveNamed (hstate : state.Anchored) (referent : Referent) :
    (reserveNamed? referent).Follows (reserveNamed referent) state fun _ s => state.Intact s := by
  rcases referent with ⟨id⟩ | ⟨register⟩ | ⟨address⟩ | ⟨address⟩ | ⟨value⟩
  · exact .pure (.refl hstate)
  · exact follows_moving hstate (Storage.follows_reserve hstate.owners register)
  all_goals exact .pure (.refl hstate)

theorem follows_reserveAll (hstate : state.Anchored) (referents : List Referent) :
    (referents.forM reserveNamed?).Follows (referents.forM reserveNamed) state
      fun _ s => state.Intact s :=
  .forM state.Intact (.refl hstate) fun referent _ hs =>
    (follows_reserveNamed hs.anchored referent).imp fun _ _ hs' => hs.trans hs'

theorem follows_instructLast {before : BuildState} (hs : before.Intact state)
    (instruction : Instruction) (register : Register) :
    (do
      instruct? instruction
      return register : BuildAttempt Register).Follows
    (do
      instruct instruction
      return register) state fun _ s => before.Intact s :=
  (follows_instruct hs.anchored instruction).bind fun _ _ hs' => .pure (hs.trans hs')

/-- A computation follows if finding the register for its result does. -/
theorem follows_compute (hstate : state.Anchored) {computation : Computation}
    (hin : ∀ operand ∈ computation.operands, operand.InRange state.storage)
    {target? : Bool → BuildAttempt Register} {target : Bool → Build Register}
    (htarget : ∀ keep s, state.Intact s →
      (target? keep).Follows (target keep) s fun _ s' => state.Intact s') :
    (compute? computation target?).Follows (compute computation target) state
      fun _ s => state.Intact s := by
  rcases computation with ⟨source⟩ | ⟨left, op, right⟩ | ⟨op, source⟩
  · have hsource := hin source (List.mem_singleton_self _)
    refine .ite (fun _ => ?_) fun _ => ?_
    · refine (follows_operandRegister hstate hsource).bind fun register s hs => ?_
      refine (htarget false s hs).bind fun dest s hs => .ite (fun _ => .pure hs) fun _ => ?_
      exact follows_instructLast hs _ dest
    · refine (htarget false state (.refl hstate)).bind fun dest s hs => ?_
      refine (follows_copyInto hs.anchored (hs.inRange hsource) dest).bind fun _ _ hs' => ?_
      exact .pure (hs.trans hs')
  · have hleft := hin left (List.mem_cons_self ..)
    have hright := hin right (List.mem_cons_of_mem _ (List.mem_singleton_self _))
    refine (follows_operandRegister hstate hleft).bind fun a s hs => ?_
    refine (follows_operandRegister hs.anchored (hs.inRange hright)).bind fun b s hs' => ?_
    refine (htarget false s (hs.trans hs')).bind fun dest s hs => ?_
    exact follows_instructLast hs _ dest
  · have hsource := hin source (List.mem_singleton_self _)
    refine (follows_operandRegister hstate hsource).bind fun b s hs => ?_
    refine (htarget true s hs).bind fun dest s hs => ?_
    exact follows_instructLast hs _ dest

theorem follows_cellTarget {before : BuildState} (hs : before.Intact state)
    (load : Register → Instruction) (keep : Bool) :
    (cellTarget? load keep).Follows (cellTarget load keep) state fun _ s => before.Intact s := by
  refine (follows_moving hs.anchored (Storage.follows_scratch hs.anchored.owners)).bind
    fun register s hs' => .ite (fun _ => ?_) fun _ => .pure (hs.trans hs')
  exact follows_instructLast (hs.trans hs') _ register

theorem follows_computeCell (hstate : state.Anchored) {computation : Computation}
    (hin : ∀ operand ∈ computation.operands, operand.InRange state.storage)
    (load : Register → Instruction) :
    (computeCell? computation load).Follows (computeCell computation load) state
      fun _ s => state.Intact s := by
  have hcompute := follows_compute hstate hin fun keep s hs => follows_cellTarget hs load keep
  rcases computation with ⟨source⟩ | ⟨left, op, right⟩ | ⟨op, source⟩
  · exact follows_operandRegister hstate (hin source (List.mem_singleton_self _))
  · exact hcompute
  · exact hcompute

theorem follows_markModified {before : BuildState} (hs : before.Intact state)
    (hid : id < before.storage.vars.length) :
    (storing? (Storage.markModified? id)).Follows (storing (Storage.markModified id)) state
      fun _ s => before.Intact s :=
  (follows_storing hs.anchored
    (Storage.follows_markModified hs.anchored.owners (hs.lt hid))).imp fun _ _ hs' => hs.trans hs'

theorem follows_assign (hstate : state.Anchored) {dest : Referent} (hdest : dest.InRange state.storage)
    (update : Update) :
    (assign? dest update).Follows (assign dest update) state fun _ s => state.Intact s := by
  refine (follows_resolve update).bind ?_
  rintro computation s ⟨rfl, hin⟩
  refine (follows_reserveAll hstate (dest :: computation.operands)).bind fun _ s₁ hs₁ => ?_
  have hin₁ := fun operand hoperand => hs₁.inRange (hin operand hoperand)
  rcases dest with ⟨id⟩ | ⟨register⟩ | ⟨address⟩ | ⟨address⟩ | ⟨value⟩
  · have hid : id < s₁.storage.vars.length := hs₁.lt hdest
    refine (follows_compute hs₁.anchored hin₁ fun keep s hs => ?_).bind fun _ s₂ hs₂ => ?_
    · exact (follows_bindForWrite hs.anchored (hs.lt hid) keep).imp fun _ _ hs' => hs.trans hs'
    · refine .look_last (follows_markModified (hs₁.trans hs₂) hdest) fun s hs => ?_
      exact ⟨_, Storage.getElem?_vars (hs.lt hdest)⟩
  · refine (follows_compute hs₁.anchored hin₁ fun _ _ hs => .pure hs).bind fun _ s₂ hs₂ => ?_
    exact .pure (hs₁.trans hs₂)
  · refine (follows_computeCell hs₁.anchored hin₁ _).bind fun register s₂ hs₂ => ?_
    exact follows_emitAfter (hs₁.trans hs₂) _
  · refine (follows_computeCell hs₁.anchored hin₁ _).bind fun register s₂ hs₂ => ?_
    exact follows_emitAfter (hs₁.trans hs₂) _
  · exact .fail _

/-! ## Conditions -/

/-- A side of a condition that goes to a register of its own. -/
theorem follows_copyApart (hstate : state.Anchored) (hin : referent.InRange state.storage) :
    (do
      let register ← moving? (Storage.pick? 1)
      copyInto? referent register
      return register : BuildAttempt Register).Follows
    (do
      let register ← storing (Storage.pick 1)
      copyInto referent register
      return register) state fun _ s => state.Intact s := by
  refine (follows_pick hstate).bind fun register s hs => ?_
  refine (follows_copyInto hs.anchored (hs.inRange hin) register).bind fun _ _ hs' => ?_
  exact .pure (hs.trans hs')

theorem follows_copyToPivot (hstate : state.Anchored) (hin : referent.InRange state.storage) :
    (do
      copyInto? referent pivot
      return pivot : BuildAttempt Register).Follows
    (do
      copyInto referent 0
      return 0) state fun _ s => state.Intact s :=
  (follows_copyInto hstate hin pivot).bind fun _ _ hs => .pure hs

theorem follows_leftRegister (hstate : state.Anchored) {left : Referent}
    (hin : left.InRange state.storage) (right : Referent) :
    (leftRegister? left right).Follows (leftRegister left right) state
      fun _ s => state.Intact s := by
  rcases left with ⟨id⟩ | ⟨register⟩ | ⟨address⟩ | ⟨address⟩ | ⟨value⟩
  case register => exact .pure (.refl hstate)
  all_goals
    exact .ite (fun _ => follows_copyApart hstate hin) fun _ => follows_copyToPivot hstate hin

theorem follows_rightRegister (hstate : state.Anchored) (first : Register) {right : Referent}
    (hin : right.InRange state.storage) :
    (rightRegister? first right).Follows (rightRegister first right) state
      fun _ s => state.Intact s := by
  rcases right with ⟨id⟩ | ⟨register⟩ | ⟨address⟩ | ⟨address⟩ | ⟨value⟩
  case register => exact .pure (.refl hstate)
  all_goals
    exact .ite (fun _ => follows_copyApart hstate hin) fun _ => follows_copyToPivot hstate hin

theorem follows_compare (hstate : state.Anchored) (condition : Condition) (accept reject : Target)
    (line : Nat) :
    (compare? condition accept reject line).Follows (compare condition accept reject line) state
      fun _ s => state.Intact s := by
  refine (follows_referent condition.left).bind ?_
  rintro left state ⟨rfl, hleft⟩
  refine (follows_referent condition.right).bind ?_
  rintro right state ⟨rfl, hright⟩
  refine .ite (fun _ => .fail _) fun _ => ?_
  refine (follows_reserveAll hstate [left, right]).bind fun _ s₁ hs₁ => ?_
  refine (follows_leftRegister hs₁.anchored (hs₁.inRange hleft) right).bind fun first s₂ hs₂ => ?_
  have hs₂ := hs₁.trans hs₂
  refine (follows_rightRegister hs₂.anchored first (hs₂.inRange hright)).bind fun second s₃ hs₃ => ?_
  have hs₃ := hs₂.trans hs₃
  refine .ite (fun _ => follows_emitAfter hs₃ _) fun _ =>
    .ite (fun _ => follows_emitAfter hs₃ _) fun _ => ?_
  exact (follows_instruct hs₃.anchored _).bind fun _ _ hs₄ => follows_emitAfter (hs₃.trans hs₄) _

/-! ## Calls -/

theorem follows_writeText (hstate : state.Anchored) (bytes : List UInt8) :
    (writeText? bytes).Follows (writeText bytes) state fun _ s => state.Intact s := by
  refine .ite (fun _ => .fail _) fun _ => ?_
  refine (follows_moving hstate (Storage.follows_scratch hstate.owners)).bind fun register s hs => ?_
  refine .forM state.Intact hs fun byte s hs => ?_
  refine (follows_instruct hs.anchored _).bind fun _ s' hs' => ?_
  exact follows_emitAfter (hs.trans hs') _

/-- An instruction on the register of an operand. -/
theorem follows_ofOperand (hstate : state.Anchored) (operand : Operand)
    (instruction : Register → Instruction) :
    (do
      let value ← Attempt.ofAction (Build.referent operand)
      let register ← operandRegister? value
      instruct? (instruction register) : BuildAttempt Unit).Follows
    (do
      let value ← Build.referent operand
      let register ← operandRegister value
      instruct (instruction register)) state fun _ s => state.Intact s := by
  refine (follows_referent operand).bind ?_
  rintro value s ⟨rfl, hin⟩
  refine (follows_operandRegister hstate hin).bind fun register s hs => ?_
  exact follows_emitAfter hs _

theorem follows_writeValue (hstate : state.Anchored) (operand : Operand) :
    (writeValue? operand).Follows (writeValue operand) state fun _ s => state.Intact s :=
  follows_ofOperand hstate operand fun register => .storePort register.byte consolePort

theorem follows_write (hstate : state.Anchored) (operand : Operand) :
    (write? operand).Follows (write operand) state fun _ s => state.Intact s := by
  rcases operand with word | _ | ⟨byte, _ | ⟨byte', bytes⟩⟩
  · exact follows_writeValue hstate _
  · exact follows_writeText hstate _
  · exact follows_writeValue hstate _
  · exact follows_writeText hstate _

theorem follows_rotateAmount (operand : Operand) :
    (rotateAmount? operand).Follows (rotateAmount operand) state fun _ s => s = state := by
  refine (follows_referent operand).bind ?_
  rintro value state ⟨rfl, -⟩
  rcases value with ⟨id⟩ | ⟨register⟩ | ⟨address⟩ | ⟨address⟩ | ⟨amount⟩
  case literal => exact .ite (fun _ => .pure rfl) fun _ => .fail _
  all_goals exact .fail _

theorem follows_rotate (hstate : state.Anchored) (target amount : Operand) :
    (rotate? target amount).Follows (rotate target amount) state fun _ s => state.Intact s := by
  refine (follows_referent target).bind ?_
  rintro value s ⟨rfl, hin⟩
  rcases value with ⟨id⟩ | ⟨register⟩ | ⟨address⟩ | ⟨address⟩ | ⟨value⟩
  · refine (follows_rotateAmount amount).bind ?_
    rintro amount s rfl
    refine (follows_bindForWrite hstate hin true).bind fun register s hs => ?_
    refine (follows_instruct hs.anchored _).bind fun _ s' hs' => ?_
    exact follows_markModified (hs.trans hs') hin
  all_goals exact .fail _

theorem follows_popInto (hstate : state.Anchored) (operand : Operand) :
    (popInto? operand).Follows (popInto operand) state fun _ s => state.Intact s := by
  refine (follows_referent operand).bind ?_
  rintro value s ⟨rfl, hin⟩
  rcases value with ⟨id⟩ | ⟨register⟩ | ⟨address⟩ | ⟨address⟩ | ⟨value⟩
  · refine (follows_bindForWrite hstate hin false).bind fun register s hs => ?_
    refine (follows_markModified hs hin).bind fun _ s' hs' => ?_
    exact follows_emitAfter hs' _
  · refine (follows_reserveNamed hstate (.register register)).bind fun _ s hs => ?_
    exact follows_emitAfter hs _
  all_goals exact .fail _

theorem follows_callBuiltin (hstate : state.Anchored) (builtin : Builtin)
    (arguments : List Operand) :
    (callBuiltin? builtin arguments).Follows (callBuiltin builtin arguments) state
      fun _ s => state.Intact s := by
  -- A list of another length is refused, whatever the function is.
  cases builtin with
  | write =>
    rcases arguments with _ | ⟨operand, _ | ⟨_, _⟩⟩
    · exact .fail _
    · exact follows_write hstate operand
    · exact .fail _
  | rotate =>
    rcases arguments with _ | ⟨target, _ | ⟨amount, _ | ⟨_, _⟩⟩⟩
    · exact .fail _
    · exact .fail _
    · exact follows_rotate hstate target amount
    · exact .fail _
  | toStack =>
    rcases arguments with _ | ⟨operand, _ | ⟨_, _⟩⟩
    · exact .fail _
    · exact follows_ofOperand hstate operand _
    · exact .fail _
  | fromStack =>
    rcases arguments with _ | ⟨operand, _ | ⟨_, _⟩⟩
    · exact .fail _
    · exact follows_popInto hstate operand
    · exact .fail _

theorem follows_callFunction (hstate : state.Anchored) (name : String) (arguments : List Operand)
    (line : Nat) :
    (callFunction? name arguments line).Follows (callFunction name arguments line) state
      fun _ s => state.Intact s := by
  refine .get ?_
  rcases function? state name with _ | function
  · exact .fail _
  · refine .ite (fun _ => ?_) fun _ => .fail _
    refine (follows_flush hstate).bind fun _ s hs => ?_
    exact follows_emitAfter hs _

theorem follows_call (hstate : state.Anchored) (name : String) (arguments : List Operand)
    (line : Nat) :
    (call? name arguments line).Follows (call name arguments line) state
      fun _ s => state.Intact s := by
  unfold call? call
  rcases Builtin.ofName? name with _ | builtin
  · exact follows_callFunction hstate name arguments line
  · exact follows_callBuiltin hstate builtin arguments

theorem follows_defineFunction (hstate : state.Anchored) (name : String) (line : Nat) :
    (defineFunction? name line).Follows (defineFunction name line) state
      fun _ s => state.Intact s := by
  refine .get (.ite (fun _ => .fail _) fun _ => .ite (fun _ => .fail _) fun _ =>
    .ite (fun _ => .fail _) fun _ => ?_)
  refine (follows_flush hstate).bind fun _ s hs => .get ?_
  refine Attempt.Follows.bind (.modify ?_ : Attempt.Follows _ _ _ fun _ s => state.Intact s)
    fun _ s hs => ?_
  · refine ⟨⟨hs.anchored.owners, fun id hid => ?_⟩, hs.vars_le⟩
    cases hid
    simp
  · exact (follows_openBlock hs.anchored _ line).imp fun _ _ hs' => hs.trans hs'

/-! ## Statements -/

theorem follows_namedLabel {before : BuildState} (hs : before.Intact state) (name : String) :
    (Attempt.ofAction (namedLabel name)).Follows (namedLabel name) state
      fun _ s => before.Intact s :=
  .ofAction fun _ _ => hs.trans (hs.anchored.of_eq rfl rfl rfl)

theorem follows_blockName {before : BuildState} (hs : before.Intact state) (keyword : String) :
    (Attempt.ofAction (blockName keyword)).Follows (blockName keyword) state
      fun _ s => before.Intact s :=
  .ofAction fun _ _ => hs.trans (hs.anchored.of_eq rfl rfl rfl)

theorem follows_flushNamedEmit (hstate : state.Anchored) (name : String) (item : LabelId → Item) :
    (do
      flush?
      let label ← Attempt.ofAction (namedLabel name)
      emit? (item label) : BuildAttempt Unit).Follows
    (do
      flush
      let label ← namedLabel name
      emit (item label)) state fun _ s => state.Intact s :=
  (follows_flush hstate).bind fun _ _ hs => (follows_namedLabel hs name).bind fun _ _ hs =>
    follows_emitAfter hs _

theorem follows_declareNew (hstate : state.Anchored) {name : String} {scope : Scope}
    (hnew : state.storage.find? name scope = none) (codeSize : Nat) :
    (Attempt.ofAction (storing (Storage.declare name scope codeSize))).Follows
      (storing (Storage.declare name scope codeSize)) state
      fun id s => state.Intact s ∧ id < s.storage.vars.length := by
  refine .ofAction fun id hid => ?_
  rcases (Storage.run_declare hnew :
    (∃ note, _ ∧ (Storage.declare name scope codeSize).run _ = _) ∨ _) with ⟨note, -, hrun⟩ | hrun
  · rw [run_storing hrun] at hid ⊢
    cases hid
    have hlength := Storage.length_extended state.storage name scope
    refine ⟨⟨⟨fun register other howner => ?_, hstate.current⟩, ?_⟩, ?_⟩
    · change other < (state.storage.extended name scope).vars.length
      rw [hlength]
      exact Nat.lt_succ_of_lt (hstate.owners register other howner)
    · change _ ≤ (state.storage.extended name scope).vars.length
      rw [hlength]
      exact Nat.le_succ _
    · change _ < (state.storage.extended name scope).vars.length
      rw [hlength]
      exact Nat.lt_succ_self _
  · rw [run_storing hrun] at hid
    cases hid

theorem follows_initialize {before : BuildState} (hs : before.Intact state)
    (hid : id < state.storage.vars.length) (value : Operand) :
    (assign? (.variable id) (.set value)).Follows (assign (.variable id) (.set value)) state
      fun _ s => before.Intact s := by
  have hin : (Referent.variable id).InRange state.storage := hid
  exact (follows_assign hs.anchored hin _).imp fun _ _ hs' => hs.trans hs'

theorem follows_declare (hstate : state.Anchored) (name : String) (value : Option Operand)
    (line : Nat) :
    (declare? name value line).Follows (declare name value line) state
      fun _ s => state.Intact s := by
  refine .get ?_
  rcases hfind : state.storage.find? name state.current with _ | id
  · refine (follows_declareNew hstate hfind _).bind fun id s ⟨hs, hid⟩ => ?_
    refine (follows_modify (.refl hs.anchored) rfl rfl rfl).bind fun _ s' hs' => ?_
    rcases value with _ | value
    · exact follows_modify (hs.trans hs') rfl rfl rfl
    · exact follows_initialize (hs.trans hs') (hs'.lt hid) value
  · rcases value with _ | value
    · exact .fail _
    · refine .ite (fun _ => ?_) fun _ => .fail _
      refine (follows_modify (.refl hstate) rfl rfl rfl).bind fun _ s hs => ?_
      exact follows_initialize hs (hs.lt (Referent.lt_of_find? hfind)) value

theorem follows_openBranch (hstate : state.Anchored) (condition : Condition) (line : Nat) :
    (openBranch? condition line).Follows (openBranch condition line) state
      fun _ s => state.Intact s := by
  refine (follows_flush hstate).bind fun _ s hs => (follows_blockName hs _).bind fun name s hs => ?_
  refine .get ((follows_modify hs rfl rfl rfl).bind fun _ s hs => ?_)
  refine (follows_compare hs.anchored _ _ _ line).bind fun _ s' hs' => ?_
  exact (follows_openBlock hs'.anchored _ line).imp fun _ _ hs'' => (hs.trans hs').trans hs''

theorem follows_openLoop (hstate : state.Anchored) (condition : Condition) (line : Nat) :
    (openLoop? condition line).Follows (openLoop condition line) state
      fun _ s => state.Intact s := by
  refine (follows_flush hstate).bind fun _ s hs => (follows_blockName hs _).bind fun name s hs => ?_
  refine .get ((follows_modify hs rfl rfl rfl).bind fun _ s hs => ?_)
  refine (follows_emitAfter hs _).bind fun _ s hs => ?_
  refine (follows_compare hs.anchored _ _ _ line).bind fun _ s' hs' => ?_
  exact (follows_openBlock hs'.anchored _ line).imp fun _ _ hs'' => (hs.trans hs').trans hs''

theorem follows_openElse (hstate : state.Anchored) (line : Nat) :
    (openElse? line).Follows (openElse line) state fun _ s => state.Intact s := by
  refine (follows_flush hstate).bind fun _ s hs => .get ?_
  rcases s.blocks with _ | ⟨block, outer⟩
  · exact .fail _
  · dsimp only
    rcases block.openElse line with error | ⟨block, items⟩
    · exact .fail _
    · refine (follows_modify hs rfl rfl rfl).bind fun _ s' hs' => ?_
      exact (follows_emitAll hs'.anchored items).imp fun _ _ hs'' => hs'.trans hs''

theorem follows_closeBlock (hstate : state.Anchored) (line : Nat) :
    (closeBlock? line).Follows (closeBlock line) state fun _ s => state.Intact s := by
  refine (follows_flush hstate).bind fun _ s hs => .get ?_
  rcases s.blocks with _ | ⟨block, outer⟩
  · exact .fail _
  · refine (follows_modify hs rfl rfl rfl).bind fun _ s' hs' => ?_
    refine (follows_emitAll hs'.anchored _).bind fun _ s'' hs'' => ?_
    have hs'' := hs'.trans hs''
    refine .ite (fun _ => .modify ?_) fun _ => .pure hs''
    exact ⟨⟨hs''.anchored.owners, fun _ hid => (by cases hid)⟩, hs''.vars_le⟩

theorem follows_returnToCaller (hstate : state.Anchored) :
    returnToCaller?.Follows returnToCaller state fun _ s => state.Intact s :=
  .get <| .ite (fun _ => .fail _) fun _ =>
    (follows_flush hstate).bind fun _ _ hs => follows_emitAfter hs _

theorem follows_statement (hstate : state.Anchored) (statement : Statement) (line : Nat) :
    (statement? statement line).Follows (Build.statement statement line) state
      fun _ s => state.Intact s := by
  cases statement with
  | declare name value => exact follows_declare hstate name value line
  | assign dest update =>
    refine (follows_referent _).bind ?_
    rintro dest state ⟨rfl, hin⟩
    exact follows_assign hstate hin update
  | ifGoto condition label =>
    refine (follows_flush hstate).bind fun _ s hs => (follows_namedLabel hs _).bind fun _ s hs => ?_
    exact (follows_compare hs.anchored _ _ _ line).imp fun _ _ hs' => hs.trans hs'
  | ifBlock condition => exact follows_openBranch hstate condition line
  | loop condition => exact follows_openLoop hstate condition line
  | otherwise => exact follows_openElse hstate line
  | close => exact follows_closeBlock hstate line
  | function name => exact follows_defineFunction hstate name line
  | ret => exact follows_returnToCaller hstate
  | goto label => exact follows_flushNamedEmit hstate label fun id => .goto id line
  | label label => exact follows_flushNamedEmit hstate label fun id => .label id line
  | halt => exact follows_emit hstate _
  | exit code =>
    refine (follows_instruct hstate _).bind fun _ s hs => ?_
    refine (follows_instruct hs.anchored _).bind fun _ s' hs' => ?_
    exact follows_emitAfter (hs.trans hs') _
  | call name arguments => exact follows_call hstate name arguments line

theorem follows_line (hstate : state.Anchored) (text : String) (number : Nat) :
    (line? text number).Follows (Build.line text number) state fun _ s => state.Intact s := by
  unfold line? Build.line
  rcases Statement.parse text.toList with error | _ | parsed
  · exact .fail _
  · exact .pure (.refl hstate)
  · exact follows_statement hstate parsed number

end ByteBasic.Build
