import ByteBasic.Proofs.Compiler.Building

/-!
# Operands in registers

Finding a register for an operand, or copying an operand into one, is a part of a statement
(`Storage.Serves`) after which the register holds the value of the operand. What an operand's value
is can be said beforehand for variables and numbers (`Referent.value?`); a memory cell may be the
slot of a variable that is written back on the way.
-/

namespace ByteBasic

namespace Referent

/-- The variable of a referent exists. -/
def InRange (storage : Storage) : Referent → Prop
  | .variable id => id < storage.vars.length
  | _ => True

/-- What a referent holds: a variable its value, wherever that is kept, and everything else what is
there. -/
def value (storage : Storage) (core : Core) : Referent → UInt8
  | .variable id => storage.value core id
  | .register r => core.reg r.byte
  | .memory address => core.mem address
  | .port address => core.port address
  | .literal byte => byte

/-- No memory cell, or one that is not the slot of a variable. -/
def Apart (storage : Storage) (referent : Referent) : Prop :=
  ∀ address, referent = .memory address →
    ∀ id < storage.vars.length, (storage.get id).address ≠ address

/-- The value of a variable or a number. -/
def value? (storage : Storage) (core : Core) : Referent → Option UInt8
  | .variable id => some (storage.value core id)
  | .literal value => some value
  | _ => none

/-- Referents that are read without looking at a port. -/
def Portless (referent : Referent) : Prop :=
  ∀ address, referent ≠ .port address

theorem InRange.of_same {before after : Storage} {referent : Referent}
    (h : referent.InRange before) (same : before.SameVars after) : referent.InRange after := by
  rcases referent with ⟨id⟩ | _ | _ | _ | _
  · have h : id < before.vars.length := h
    rw [← same.length_eq] at h
    exact h
  all_goals trivial

theorem Apart.of_same {before after : Storage} {referent : Referent} (h : referent.Apart before)
    (same : before.SameVars after) : referent.Apart after := by
  intro address heq id hid
  rw [same.length_eq] at hid
  rw [same.address_eq]
  exact h address heq id hid

/-- The value of a variable or a number is what it holds. -/
theorem value_of_value? {storage : Storage} {core : Core} {referent : Referent} {byte : UInt8}
    (h : referent.value? storage core = some byte) :
    referent.Apart storage ∧ referent.value storage core = byte := by
  rcases referent with ⟨id⟩ | _ | _ | _ | ⟨value⟩
  · exact ⟨fun _ heq => (by cases heq), Option.some.inj h⟩
  · cases h
  · cases h
  · cases h
  · exact ⟨fun _ heq => (by cases heq), Option.some.inj h⟩

theorem portless_of_value? {storage : Storage} {core : Core} {referent : Referent} {byte : UInt8}
    (h : referent.value? storage core = some byte) : referent.Portless := by
  rintro address rfl
  cases h

/-- The value of an operand depends on the variables, and not on who holds the registers. -/
theorem value_congr {before after : Storage} (h : after.vars = before.vars) (core : Core)
    (referent : Referent) : referent.value after core = referent.value before core := by
  rcases referent with ⟨id⟩ | _ | _ | _ | _
  · simp only [value, Storage.value, Storage.get, h]
  all_goals rfl

/-- A part of a statement leaves the values of operands as they were, if it leaves a register among them
as it was. -/
theorem value_of_spares {used : List Register} {before after : Storage} {core core' : Core}
    {referent : Referent} (hin : referent.InRange before) (apart : referent.Apart before)
    (hkept : ∀ r, referent = .register r → core'.reg r.byte = core.reg r.byte)
    (h : before.Spares used core after core') :
    referent.value after core' = referent.value before core := by
  rcases referent with ⟨id⟩ | ⟨r⟩ | ⟨address⟩ | ⟨address⟩ | ⟨value⟩
  · exact h.value hin
  · exact hkept r rfl
  · exact h.memory (apart address rfl)
  · show core'.port address = core.port address
    rw [h.rest]
    rfl
  · rfl

theorem value_of_spares_cell {used : List Register} {before after : Storage} {core core' : Core}
    {referent : Referent} (hcell : referent.isRegistered = false) (apart : referent.Apart before)
    (h : before.Spares used core after core') :
    referent.value after core' = referent.value before core := by
  refine value_of_spares ?_ apart (fun r hr => ?_) h
  · rcases referent with ⟨id⟩ | _ | _ | _ | _
    · cases hcell
    all_goals trivial
  · rw [hr] at hcell
    cases hcell

/-! ## What operands refer to -/

theorem ofOperand_of_same {before after : Storage} (same : before.SameVars after) (scope : Scope)
    (operand : Operand) : ofOperand after scope operand = ofOperand before scope operand := by
  cases operand with
  | word word => rw [ofOperand, ofOperand, ofWord, ofWord, same.lookup?_eq]
  | text bytes => rcases bytes with _ | ⟨byte, _ | ⟨other, rest⟩⟩ <;> rfl

theorem kind_ofCell {word : String} {chars : List Char} {error : CompileError}
    (h : ofCell word chars = .error error) : error.kind = .value := by
  unfold ofCell at h
  split at h
  · split at h
    · split at h <;> cases h
      rfl
    · cases h
      rfl
  · split at h <;> cases h
    rfl
  · split at h <;> cases h
    rfl
  · cases h
    rfl

theorem kind_ofSpelling {word : String} {error : CompileError}
    (h : ofSpelling word = .error error) : error.kind = .value := by
  unfold ofSpelling at h
  split at h
  · split at h <;> cases h
    rfl
  · split at h
    · split at h <;> cases h
      rfl
    · exact kind_ofCell h

/-- An operand that refers to nothing is a fault of the value. -/
theorem kind_ofOperand {storage : Storage} {scope : Scope} {operand : Operand}
    {error : CompileError} (h : ofOperand storage scope operand = .error error) :
    error.kind = .value := by
  unfold ofOperand ofWord at h
  split at h
  · split at h
    · cases h
    · exact kind_ofSpelling h
  · cases h
  · cases h
    rfl

theorem not_variable_ofCell {word : String} {chars : List Char} {id : VarId} :
    ofCell word chars ≠ .ok (.variable id) := by
  unfold ofCell
  split
  · split
    · split <;> simp
    · simp
  · split <;> simp
  · split <;> simp
  · simp

theorem not_variable_ofSpelling {word : String} {id : VarId} :
    ofSpelling word ≠ .ok (.variable id) := by
  unfold ofSpelling
  split
  · split <;> simp
  · split
    · split <;> simp
    · exact not_variable_ofCell

theorem lt_of_find? {storage : Storage} {name : String} {scope : Scope} {id : VarId}
    (h : storage.find? name scope = some id) : id < storage.vars.length := by
  unfold Storage.find? at h
  obtain ⟨hlt, -⟩ := List.findIdx?_eq_some_iff_getElem.1 h
  exact hlt

theorem lt_of_lookup? {storage : Storage} {name : String} {scope : Scope} {id : VarId}
    (h : storage.lookup? name scope = some id) : id < storage.vars.length := by
  unfold Storage.lookup? at h
  split at h
  · next id' hfind =>
    cases h
    exact lt_of_find? hfind
  · exact lt_of_find? h

theorem inRange_ofOperand {storage : Storage} {scope : Scope} {operand : Operand}
    {referent : Referent} (h : ofOperand storage scope operand = .ok referent) :
    referent.InRange storage := by
  rcases referent with ⟨id⟩ | _ | _ | _ | _
  · unfold ofOperand ofWord at h
    split at h
    · split at h
      · next found hlookup =>
        cases h
        exact lt_of_lookup? hlookup
      · exact absurd h not_variable_ofSpelling
    · cases h
    · cases h
  all_goals trivial

end Referent

namespace Storage

variable {calm calm' : Prop} {used : List Register} {before after : Storage}
variable {code : List Instruction} {register : Register} {i : Instruction}

/-- An instruction that only writes one register. -/
def Fills (register : Register) (i : Instruction) : Prop :=
  ∀ mode core, ∃ value, (Core.execute mode i core).1 = core.setReg register.byte value

/-- A register that is used for a value of the statement may be written. -/
theorem Spares.setReg {core core' : Core} (h : Spares used before core after core')
    (hused : register ∈ used) (hpin : ¬ before.Pinned register)
    (hown : ∀ j, after.owner register ≠ some (.variable j)) (value : UInt8) :
    Spares used before core after (core'.setReg register.byte value) := by
  obtain ⟨written, hk, hw⟩ := h
  have hset : Keeps [register] after core' after (core'.setReg register.byte value) :=
    Keeps.setReg hk.coherent hown value (List.mem_singleton_self _)
  refine ⟨written ++ [register], (hk.mono fun r hr => List.mem_append_left _ hr).trans
    (hset.mono fun r hr => List.mem_append_right _ hr), fun r hr => ?_⟩
  rcases List.mem_append.1 hr with hr | hr
  · exact hw r hr
  · rw [List.mem_singleton.1 hr]
    exact ⟨hused, hpin⟩

theorem Serves.fill (h : Serves calm used before code after) (hused : register ∈ used)
    (hpin : ¬ before.Pinned register) (hown : ∀ j, after.owner register ≠ some (.variable j))
    (hi : Fills register i) (fits : i.Fits ∧ i.Steady) (hcalm : calm' → Calm before i) :
    Serves (calm ∧ calm') used before (code ++ [i]) after where
  tidy := h.tidy
  same := h.same
  held := h.held
  pins := h.pins
  fits j hj := by
    rcases List.mem_append.1 hj with hj | hj
    · exact h.fits j hj
    · rw [List.mem_singleton.1 hj]
      exact fits
  calm hc j hj := by
    rcases List.mem_append.1 hj with hj | hj
    · exact h.calm hc.1 j hj
    · rw [List.mem_singleton.1 hj]
      exact hcalm hc.2
  spares mode core hc := by
    obtain ⟨value, hvalue⟩ := hi mode (core.executeAll mode code)
    rw [Core.executeAll_append, Core.executeAll_cons, Core.executeAll_nil, hvalue]
    exact (h.spares mode core hc).setReg hused hpin hown value

theorem fits_load (register : Register) (value : UInt8) :
    (Instruction.load register.byte value).Fits := by
  simp [Instruction.Fits, Instruction.nibbles]

theorem fits_loadPort (register : Register) (address : UInt8) :
    (Instruction.loadPort register.byte address).Fits := by
  simp [Instruction.Fits, Instruction.nibbles]

end Storage

/-- An instruction that puts what a cell or a number holds into a register. -/
structure Referent.Fetches (referent : Referent) (register : Register) (i : Instruction) : Prop where
  cell : referent.isRegistered = false
  fits : i.Fits
  steady : i.Steady
  calm : referent.Portless → ∀ storage, Storage.Calm storage i
  effect : ∀ mode storage core,
    (Core.execute mode i core).1 = core.setReg register.byte (referent.value storage core)

namespace Referent

theorem Fetches.fills {referent : Referent} {register : Register} {i : Instruction}
    (h : referent.Fetches register i) : Storage.Fills register i :=
  fun mode core => ⟨_, h.effect mode .empty core⟩

theorem fetches_memory (address : UInt8) (register : Register) :
    (memory address).Fetches register (.loadMem register.byte address) :=
  ⟨rfl, Storage.fits_loadMem register address, trivial, fun _ _ => trivial, fun _ _ _ => rfl⟩

theorem fetches_port (address : UInt8) (register : Register) :
    (port address).Fetches register (.loadPort register.byte address) :=
  ⟨rfl, Storage.fits_loadPort register address, trivial, fun h => absurd rfl (h address),
    fun _ _ _ => rfl⟩

theorem fetches_literal (value : UInt8) (register : Register) :
    (literal value).Fetches register (.load register.byte value) :=
  ⟨rfl, Storage.fits_load register value, trivial, fun _ _ => trivial, fun _ _ _ => rfl⟩

end Referent

namespace Build

open Storage (Pins Serves Calm Grants)

variable {number : Nat} {state before middle after : BuildState} {pins : List Register} {α : Type}
variable {calm calm' : Prop} {used used' : List Register} {code code' : List Instruction}

/-! ## Parts of a statement -/

/-- A part of a statement as the compiler carries it out: only the storage changes. -/
structure Advances (calm : Prop) (used : List Register) (before : BuildState)
    (code : List Instruction) (after : BuildState) : Prop where
  alike : Alike before after
  serves : Serves calm used before.storage code after.storage

namespace Advances

theorem refl (h : state.Ranged number) : Advances calm used state [] state :=
  ⟨.refl state, (Serves.refl h.tidy).weaken id fun _ hr => (by cases hr)⟩

theorem trans (h₁ : Advances calm used before code middle)
    (h₂ : Advances calm' used' middle code' after) :
    Advances (calm ∧ calm') (used ++ used') before (code ++ code') after :=
  ⟨h₁.alike.trans h₂.alike, h₁.serves.trans h₂.serves⟩

theorem weaken (h : Advances calm used before code after) (hcalm : calm' → calm)
    (hused : ∀ r ∈ used, r ∈ used') : Advances calm' used' before code after :=
  ⟨h.alike, h.serves.weaken hcalm hused⟩

theorem ranged (h : Advances calm used before code after) (hstate : before.Ranged number) :
    after.Ranged number :=
  hstate.of_alike h.alike h.serves.tidy h.serves.same

theorem pinsTo (h : Advances calm used before code after) (hpins : Pins pins before.storage) :
    Pins (used ++ pins) after.storage :=
  h.serves.pinsTo hpins

theorem inRange (h : Advances calm used before code after) {referent : Referent}
    (hin : referent.InRange before.storage) : referent.InRange after.storage :=
  hin.of_same h.serves.same

end Advances

theorem yields_advance {operation : StorageM α} {a : α} {after : Storage}
    {events : List StorageEvent} (hstate : state.Ranged number)
    (hrun : operation.run state.storage = ⟨.ok a, after, events⟩)
    (hserves : Serves calm used state.storage (Storage.code events) after) :
    Yields number (storing operation) state fun result s items =>
      result = a ∧ s.storage = after ∧ items = straight state.current (Storage.code events) ∧
        Advances calm used state (Storage.code events) s := by
  refine (yields_storing hstate hrun fun i hi => (hserves.fits i hi).imp_right
    Instruction.Steady.plain).imp fun result s items h => ?_
  obtain ⟨hresult, halike, hstorage, hitems⟩ := h
  exact ⟨hresult, hstorage, hitems, halike, by rw [hstorage]; exact hserves⟩

theorem gives_advance {operation : StorageM α} {a : α} {after : Storage}
    {events : List StorageEvent} (hstate : state.Ranged number)
    (hrun : operation.run state.storage = ⟨.ok a, after, events⟩)
    (hserves : Serves calm used state.storage (Storage.code events) after) :
    Gives number (storing operation) state fun result s items =>
      result = a ∧ s.storage = after ∧ items = straight state.current (Storage.code events) ∧
        Advances calm used state (Storage.code events) s := by
  refine ⟨yields_advance hstate hrun hserves, a, ?_⟩
  have hresult : ((storing operation).run state).result =
      (operation.run state.storage).result.mapError CompileError.storage := rfl
  rw [hresult, hrun]
  rfl

theorem Yields.registerOf {id : VarId} {next : Option Register → Build α}
    {ok : α → BuildState → List (Scope × Item) → Prop}
    (h : Yields number (next (state.storage.get id).register) state ok) :
    Yields number (registerOf id >>= next) state ok := by
  unfold Yields at h ⊢
  rw [Action.run_bind]
  exact h

theorem yields_referent (operand : Operand) :
    Yields number (referent operand) state fun result after items =>
      after = state ∧ items = [] ∧ result.InRange state.storage ∧
        Referent.ofOperand state.storage state.current operand = .ok result := by
  unfold referent
  refine .get (.ofExcept (fun error herror => .inr (.inl ?_)) fun result hresult => ?_)
  · exact Referent.kind_ofOperand herror
  · exact ⟨rfl, rfl, Referent.inRange_ofOperand hresult, hresult⟩

/-! ## Registers of operands -/

/-- What a step that gives a register for an operand comes to. -/
def Supplies (referent : Referent) (state : BuildState) (register : Register) (after : BuildState)
    (items : List (Scope × Item)) : Prop :=
  ∃ code, items = straight state.current code ∧
    Advances referent.Portless [register] state code after ∧
    ∀ mode core, state.storage.Coherent core → referent.Apart state.storage →
      (core.executeAll mode code).reg register.byte = referent.value state.storage core

theorem yields_scratch (hstate : state.Ranged number) (hpins : Pins pins state.storage)
    (room : pins.length < 15) {referent : Referent} {load : Register → Instruction}
    (hload : ∀ r, referent.Fetches r (load r)) :
    Yields number (do
        let register ← storing Storage.scratch
        instruct (load register)
        return register) state fun register after items =>
      Supplies referent state register after items ∧
        after.storage.owner register = some .temporary := by
  obtain ⟨register, held, events, hrun, hserves, hstart, howner, hpin⟩ :=
    Storage.scratch_serves hstate.tidy hpins room
  refine (yields_advance hstate hrun hserves).bind fun r s items h => ?_
  obtain ⟨rfl, hstorage, rfl, hadv⟩ := h
  refine (yields_instruct (hadv.ranged hstate) (hload r).fits (hload r).steady.plain).bind
    fun _ s' items' h' => ?_
  obtain ⟨halike, hsame, rfl⟩ := h'
  have hfilled := hserves.fill (List.mem_singleton_self _) hpin
    (fun j => by rw [howner]; simp) (hload r).fills ⟨(hload r).fits, (hload r).steady⟩
    fun hp => (hload r).calm hp _
  have howner' : s'.storage.owner r = some .temporary := by
    rw [hsame, hstorage]
    exact howner
  refine .pure ⟨⟨Storage.code events ++ [load r], ?_, ⟨hadv.alike.trans halike, ?_⟩, ?_⟩, howner'⟩
  · rw [List.append_nil, hadv.alike.current, straight_append]
  · rw [hsame, hstorage]
    exact hfilled.weaken (fun h => ⟨trivial, h⟩) fun _ hr => hr
  · intro mode core hc apart
    rw [Core.executeAll_append, Core.executeAll_cons, Core.executeAll_nil,
      (hload r).effect mode held, Core.reg_setReg_self,
      Referent.value_of_spares_cell (hload r).cell apart (hserves.spares mode core hc)]

theorem yields_loadVariable (hstate : state.Ranged number) (hpins : Pins pins state.storage)
    (room : pins.length < 15) {id : VarId} (hid : id < state.storage.vars.length)
    (hnone : (state.storage.get id).register = none) :
    Yields number (do
        let register ← storing (Storage.pick 1)
        storing (Storage.load id register true)
        return register) state fun register after items =>
      Supplies (.variable id) state register after items ∧
        (after.storage.get id).register = some register ∧ after.storage.Pinned register := by
  obtain ⟨register, picked, events, hrun, hserves, hstart, hfree, hpin, hunbound⟩ :=
    Storage.pick_serves hstate.tidy hpins room
  refine (yields_advance hstate hrun hserves).bind fun r s items h => ?_
  obtain ⟨rfl, rfl, rfl, hadv⟩ := h
  have hid' : id < s.storage.vars.length := by
    rw [hadv.serves.same.length_eq]
    exact hid
  obtain ⟨hload, hserves', hvalue⟩ :=
    Storage.load_serves hserves.tidy hid' (hunbound id hnone) hfree hstart
  refine (yields_advance (hadv.ranged hstate) hload hserves').bind fun _ s' items' h' => ?_
  obtain ⟨-, hstorage, rfl, hadv'⟩ := h'
  have hbound : (s'.storage.get id).register = some r := by
    rw [hstorage]
    unfold Storage.bound
    rw [Storage.get_setOwner, Storage.get_update_self _ hid']
  refine .pure ⟨⟨Storage.code events ++ Storage.code (s.storage.loadCode id r), ?_, ?_, ?_⟩, hbound,
    ?_⟩
  · rw [List.append_nil, hadv.alike.current, straight_append]
  · exact (hadv.trans hadv').weaken (fun _ => ⟨trivial, trivial⟩) fun _ hr => hr
  · intro mode core hc _
    have hspares := hserves.spares mode core hc
    rw [Core.executeAll_append, hvalue mode _ hspares.coherent, hspares.value hid]
    rfl
  · rw [hstorage]
    exact (Storage.pinned_bound hid' hserves.tidy.agrees (hunbound id hnone) r).2 (.inl rfl)

theorem yields_keepVariable (hstate : state.Ranged number) {id : VarId} {register : Register}
    (hr : (state.storage.get id).register = some register) :
    Yields number (do
        storing (Storage.bind id register true)
        return register) state fun result after items =>
      Supplies (.variable id) state result after items ∧
        (after.storage.get id).register = some result ∧ after.storage.Pinned result := by
  have hserves := Storage.serves_fixed hstate.tidy hr
  refine (yields_advance hstate (Storage.run_bind_here hr true) hserves).bind fun _ s items h => ?_
  obtain ⟨-, hstorage, rfl, hadv⟩ := h
  refine .pure ⟨⟨[], rfl, hadv.weaken (fun _ => trivial) fun _ hr => hr, ?_⟩, ?_, ?_⟩
  · intro mode core hc _
    exact hc.reg_eq_value hr
  · rw [hstorage, Storage.register_fixed]
    exact hr
  · rw [hstorage]
    exact (Storage.pinned_fixed hstate.tidy.agrees hr register).2 (.inl rfl)

/-- Every operand gets a register. It keeps it for the rest of the statement, unless the source names
the register and it is not held. -/
theorem yields_supply (hstate : state.Ranged number) (hpins : Pins pins state.storage)
    (room : pins.length < 15) {referent : Referent} (hin : referent.InRange state.storage) :
    Yields number (operandRegister referent) state fun register after items =>
      Supplies referent state register after items ∧
        ((∀ r, referent = .register r → state.storage.owner r = some .temporary) →
          after.storage.Pinned register) := by
  rcases referent with ⟨id⟩ | ⟨r⟩ | ⟨address⟩ | ⟨address⟩ | ⟨value⟩
  · refine .registerOf ?_
    cases hr : (state.storage.get id).register with
    | some register =>
      exact (yields_keepVariable hstate hr).imp fun _ _ _ h => ⟨h.1, fun _ => h.2.2⟩
    | none =>
      exact (yields_loadVariable hstate hpins room hin hr).imp fun _ _ _ h => ⟨h.1, fun _ => h.2.2⟩
  · exact .pure ⟨⟨[], rfl, .refl hstate, fun _ _ _ _ => rfl⟩, fun h => .inl (h r rfl)⟩
  · exact (yields_scratch hstate hpins room (Referent.fetches_memory address)).imp
      fun _ _ _ h => ⟨h.1, fun _ => .inl h.2⟩
  · exact (yields_scratch hstate hpins room (Referent.fetches_port address)).imp
      fun _ _ _ h => ⟨h.1, fun _ => .inl h.2⟩
  · exact (yields_scratch hstate hpins room (Referent.fetches_literal value)).imp
      fun _ _ _ h => ⟨h.1, fun _ => .inl h.2⟩

/-- The register of an operand in a statement that holds the registers which the source names. -/
theorem yields_operandRegister (hstate : state.Ranged number) (hpins : Pins pins state.storage)
    (room : pins.length < 15) {referent : Referent} (hin : referent.InRange state.storage)
    (hnamed : ∀ r, referent = .register r → state.storage.owner r = some .temporary) :
    Yields number (operandRegister referent) state fun register after items =>
      Supplies referent state register after items ∧ after.storage.Pinned register :=
  (yields_supply hstate hpins room hin).imp fun _ _ _ h => ⟨h.1, h.2 hnamed⟩

end Build

end ByteBasic
