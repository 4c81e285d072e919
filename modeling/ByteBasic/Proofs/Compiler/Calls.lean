import ByteBasic.Proofs.Compiler.Blocks

/-!
# Calls

A write stores the value of its operand, or one byte after the other, to the port of the console. A
rotation is an assignment to its variable. A call of a function gives up everything first, since the
function may want the registers and may write to any variable.
-/

namespace ByteBasic

open Storage (Pins Serves Calm Assigns Spares Flushes)

namespace Storage

theorem speak_calm {storage : Storage} {code : List Instruction}
    (h : ∀ i ∈ code, Calm storage i) (mode : RotateMode) (core : Core) :
    core.speak mode code = (core.executeAll mode code, []) := by
  induction code generalizing core with
  | nil => rfl
  | cons i code ih =>
    have hi := h i (by simp)
    have hspoken : Core.spoken i core = [] := by
      cases i with
      | storePort r port => exact hi.elim
      | _ => rfl
    have hports : { (Core.execute mode i core).1 with ports := core.ports } =
        (Core.execute mode i core).1 := by
      cases i with
      | storePort r port => exact hi.elim
      | alu op d a b => cases op <;> rfl
      | jump test r target => exact hi.elim
      | move source dest =>
        cases source with
        | special s => cases dest <;> exact hi.elim
        | general r =>
          cases dest with
          | special s => exact hi.elim
          | general r' => rfl
      | _ => rfl
    rw [Core.speak, hspoken, hports, ih fun j hj => h j (by simp [hj])]
    rfl

end Storage

namespace Build

variable {number : Nat} {state before after : BuildState} {pins : List Register}

/-! ## Writing -/

/-- The bytes that a write of an operand is to write. -/
def bytes? (storage : Storage) (scope : Scope) (core : Core) : Operand → Option (List UInt8)
  | .text bytes => some bytes
  | .word word =>
    match Referent.ofOperand storage scope (.word word) with
    | .ok referent => (referent.value? storage core).map fun byte => [byte]
    | .error _ => none

/-- Code that only computes and writes to the console. -/
def Audible (storage : Storage) (code : List Instruction) : Prop :=
  ∀ i ∈ code, Calm storage i ∨ ∃ r : Register, i = .storePort r.byte consolePort

/-- What a write puts out, and what that does. -/
def Written (operand : Operand) (scope : Scope) (before after : Storage)
    (items : List (Scope × Item)) : Prop :=
  ∃ code used, items = straight scope code ∧
    ∀ mode core, before.Coherent core → ∀ bytes, bytes? before scope core operand = some bytes →
      Audible before code ∧ (core.speak mode code).2 = bytes ∧
        Spares used before core after (core.speak mode code).1

theorem speak_storePort (mode : RotateMode) (r : Register) (core : Core) :
    core.speak mode [.storePort r.byte consolePort] = (core, [core.reg r.byte]) := rfl

theorem written_of_supplies {operand : Operand} {referent : Referent} {register : Register}
    {items : List (Scope × Item)} (hof : Referent.ofOperand state.storage state.current operand =
      .ok referent) (hone : ∀ bytes, operand = .text bytes → ∃ byte, bytes = [byte])
    (h : Supplies referent state register after items) :
    Written operand state.current state.storage after.storage
      (items ++ straight state.current [.storePort register.byte consolePort]) := by
  obtain ⟨code, rfl, hadv, hvalue⟩ := h
  refine ⟨code ++ [.storePort register.byte consolePort], [register], by rw [straight_append],
    fun mode core hc bytes hbytes => ?_⟩
  -- In either form the operand stands for one byte.
  have hbyte : ∃ byte, referent.value? state.storage core = some byte ∧ bytes = [byte] := by
    cases operand with
    | text written =>
      obtain ⟨byte, rfl⟩ := hone written rfl
      cases hof
      exact ⟨byte, rfl, (Option.some.inj hbytes).symm⟩
    | word word =>
      simp only [bytes?, hof] at hbytes
      obtain ⟨byte, hbyte, rfl⟩ := Option.map_eq_some_iff.1 hbytes
      exact ⟨byte, hbyte, rfl⟩
  obtain ⟨byte, hbyte, rfl⟩ := hbyte
  have hcalm := hadv.serves.calm (Referent.portless_of_value? hbyte)
  obtain ⟨apart, rfl⟩ := Referent.value_of_value? hbyte
  refine ⟨fun i hi => ?_, ?_⟩
  · rcases List.mem_append.1 hi with hi | hi
    · exact .inl (hcalm i hi)
    · exact .inr ⟨register, List.mem_singleton.1 hi⟩
  · rw [Core.speak_append, Storage.speak_calm hcalm, speak_storePort, hvalue mode core hc apart]
    exact ⟨rfl, hadv.serves.spares mode core hc⟩

theorem yields_writeValue (hstate : state.Ranged number) (unpinned : state.storage.Unpinned)
    {operand : Operand} (hone : ∀ bytes, operand = .text bytes → ∃ byte, bytes = [byte]) :
    Yields number (writeValue operand) state fun _ after items =>
      Stays state after ∧
        Written operand state.current state.storage after.storage items := by
  refine (yields_referent operand).bind fun referent _ _ h => ?_
  obtain ⟨rfl, rfl, hin, hof⟩ := h
  refine (yields_supply hstate unpinned.toPins (by simp) hin).bind fun register s items h => ?_
  obtain ⟨hsupplies, -⟩ := h
  have hwritten := written_of_supplies hof hone hsupplies
  obtain ⟨code, rfl, hadv, -⟩ := hsupplies
  refine (yields_instruct (hadv.ranged hstate) (fits_storePort register _) trivial).imp
    fun _ after items h => ?_
  obtain ⟨halike, hstorage, rfl⟩ := h
  refine ⟨hadv.stays.trans (.of_alike (hadv.ranged hstate) halike hstorage), ?_⟩
  rw [hstorage, hadv.alike.current]
  exact hwritten

/-- The instructions that write bytes by way of a register. -/
def writeCode (register : Register) (bytes : List UInt8) : List Instruction :=
  bytes.flatMap fun byte =>
    [.load register.byte byte, .storePort register.byte consolePort]

theorem yields_writeBytes (hstate : state.Ranged number) (register : Register)
    (bytes : List UInt8) :
    Yields number (bytes.forM fun byte => do
        instruct (.load register.byte byte)
        instruct (.storePort register.byte consolePort)) state fun _ after items =>
      Stays state after ∧ after.storage = state.storage ∧
        items = straight state.current (writeCode register bytes) := by
  induction bytes generalizing state with
  | nil => exact .pure ⟨.of_alike hstate (.refl state) rfl, rfl, rfl⟩
  | cons byte bytes ih =>
    have hone : Yields number (do
        instruct (.load register.byte byte)
        instruct (.storePort register.byte consolePort)) state fun _ after items =>
      Stays state after ∧ after.storage = state.storage ∧
        items = straight state.current (writeCode register [byte]) := by
      refine (yields_instruct hstate (Storage.fits_load register byte) trivial).bind
        fun _ s items h => ?_
      obtain ⟨halike, hstorage, rfl⟩ := h
      have hs := Stays.of_alike hstate halike hstorage
      refine (yields_instruct (hs.ranged hstate) (fits_storePort register _) trivial).imp
        fun _ after items h => ?_
      obtain ⟨halike', hstorage', rfl⟩ := h
      refine ⟨hs.trans (.of_alike (hs.ranged hstate) halike' hstorage'), hstorage'.trans hstorage, ?_⟩
      rw [halike.current]
      rfl
    refine hone.bind fun _ s items h => ?_
    obtain ⟨hs, hstorage, rfl⟩ := h
    refine (ih (hs.ranged hstate)).imp fun _ after items h => ?_
    obtain ⟨hafter, hstorage', rfl⟩ := h
    refine ⟨hs.trans hafter, hstorage'.trans hstorage, ?_⟩
    rw [hs.alike.current, ← straight_append]
    rfl

theorem writeCode_cons (register : Register) (byte : UInt8) (bytes : List UInt8) :
    writeCode register (byte :: bytes) =
      writeCode register [byte] ++ writeCode register bytes := rfl

theorem speak_writeCode_one (mode : RotateMode) (register : Register) (byte : UInt8) (core : Core) :
    core.speak mode (writeCode register [byte]) = (core.setReg register.byte byte, [byte]) := by
  have hspeak : core.speak mode (writeCode register [byte]) =
      (core.setReg register.byte byte, [(core.setReg register.byte byte).reg register.byte]) := rfl
  rw [hspeak, Core.reg_setReg_self]

/-- Writing bytes by way of a register leaves all other registers alone. -/
theorem speak_writeCode (mode : RotateMode) (register : Register) (bytes : List UInt8)
    (core : Core) :
    (core.speak mode (writeCode register bytes)).2 = bytes ∧
      ∃ value, (core.speak mode (writeCode register bytes)).1 =
        core.setReg register.byte value := by
  induction bytes generalizing core with
  | nil => exact ⟨rfl, core.reg register.byte, (Core.setReg_reg core register).symm⟩
  | cons byte bytes ih =>
    obtain ⟨hbytes, value, hcore⟩ := ih (core.setReg register.byte byte)
    rw [writeCode_cons, Core.speak_append, speak_writeCode_one]
    exact ⟨congrArg (List.cons byte) hbytes, value, hcore.trans (Core.setReg_setReg core register _ _)⟩

theorem audible_writeCode (storage : Storage) (register : Register) (bytes : List UInt8) :
    Audible storage (writeCode register bytes) := by
  intro i hi
  obtain ⟨byte, -, hi⟩ := List.mem_flatMap.1 hi
  simp only [List.mem_cons, List.not_mem_nil, or_false] at hi
  rcases hi with rfl | rfl
  · exact .inl trivial
  · exact .inr ⟨register, rfl⟩

theorem yields_writeText (hstate : state.Ranged number) (unpinned : state.storage.Unpinned)
    (bytes : List UInt8) :
    Yields number (writeText bytes) state fun _ after items =>
      Stays state after ∧
        Written (.text bytes) state.current state.storage after.storage items := by
  unfold writeText
  split
  · exact .fail (.inr (.inl rfl))
  · obtain ⟨register, held, events, hrun, hserves, -, howner, hpin⟩ :=
      Storage.scratch_serves hstate.tidy unpinned.toPins (by simp)
    refine (yields_advance hstate hrun hserves).bind fun r s items h => ?_
    obtain ⟨rfl, rfl, rfl, hadv⟩ := h
    refine (yields_writeBytes (hadv.ranged hstate) r bytes).imp fun _ after items h => ?_
    obtain ⟨hstays, hstorage, rfl⟩ := h
    refine ⟨hadv.stays.trans hstays, Storage.code events ++ writeCode r bytes, [r], ?_, ?_⟩
    · rw [straight_append, hadv.alike.current]
    · intro mode core hc written hwritten
      obtain rfl : bytes = written := Option.some.inj hwritten
      have hcalm := hserves.calm trivial
      refine ⟨fun i hi => ?_, ?_⟩
      · rcases List.mem_append.1 hi with hi | hi
        · exact .inl (hcalm i hi)
        · exact audible_writeCode _ r bytes i hi
      · obtain ⟨hspoken, value, hcore⟩ :=
          speak_writeCode mode r bytes (core.executeAll mode (Storage.code events))
        rw [Core.speak_append, Storage.speak_calm hcalm, hspoken, hcore, hstorage]
        exact ⟨rfl, (hserves.spares mode core hc).setReg (List.mem_singleton_self _) hpin
          (fun j => by rw [howner]; simp) value⟩

/-- Every operand that stands for a value can be written, and every string but the empty one. -/
theorem yields_write (hstate : state.Ranged number) (unpinned : state.storage.Unpinned)
    (operand : Operand) :
    Yields number (write operand) state fun _ after items =>
      Stays state after ∧
        Written operand state.current state.storage after.storage items := by
  unfold write
  split
  · next byte =>
    exact yields_writeValue hstate unpinned fun bytes hbytes => by cases hbytes; exact ⟨byte, rfl⟩
  · next bytes _ => exact yields_writeText hstate unpinned bytes
  · next word => exact yields_writeValue hstate unpinned fun bytes hbytes => by cases hbytes

/-! ## Rotating -/

def Rotated (target : Operand) (scope : Scope) (before after : Storage)
    (items : List (Scope × Item)) : Prop :=
  ∃ id code amount, Referent.ofOperand before scope target = .ok (.variable id) ∧
    items = straight scope code ∧ (∀ i ∈ code, Calm before i) ∧
    ∀ mode core, before.Coherent core →
      Assigns id (Core.rotateRight (before.value core id) (Core.rotateAmount mode amount)) before
        core after (core.executeAll mode code)

theorem yields_rotateAmount (operand : Operand) :
    Yields number (rotateAmount operand) state fun amount after items =>
      after = state ∧ items = [] ∧ amount.toNat < 16 := by
  refine (yields_referent operand).bind fun referent _ _ h => ?_
  obtain ⟨rfl, rfl, -, -⟩ := h
  split
  · next amount =>
    split
    · next hlt => exact .pure ⟨rfl, rfl, UInt8.lt_iff_toNat_lt.1 hlt⟩
    · exact .fail (.inr (.inl rfl))
  · exact .fail (.inr (.inl rfl))

theorem yields_rotate (hstate : state.Ranged number) (unpinned : state.storage.Unpinned)
    (target amount : Operand) :
    Yields number (rotate target amount) state fun _ after items =>
      Stays state after ∧ Rotated target state.current state.storage after.storage items := by
  refine (yields_referent target).bind fun referent _ _ h => ?_
  obtain ⟨rfl, rfl, hin, hof⟩ := h
  rcases referent with ⟨id⟩ | _ | _ | _ | _
  · refine (yields_rotateAmount amount).bind fun amount _ _ h => ?_
    obtain ⟨rfl, rfl, hamount⟩ := h
    refine (yields_bindForWrite hstate unpinned.toPins (by simp) hin true).bind
      fun dest s items h => ?_
    obtain ⟨hstays, code, granted, rfl, hserves, hgrants, hvalue⟩ := h
    have hfits : (Instruction.rotate dest.byte amount).Fits := by
      simp [Instruction.Fits, Instruction.nibbles, hamount]
    refine (yields_instruct (hstays.ranged hstate) hfits trivial).bind fun _ s' items h => ?_
    obtain ⟨halike, hstorage, rfl⟩ := h
    have hstays' := hstays.trans (.of_alike (hstays.ranged hstate) halike hstorage)
    refine (yields_markModified (hstays'.ranged hstate) id).imp fun _ after items h => ?_
    obtain ⟨hmarked, hstorage', rfl⟩ := h
    refine ⟨hstays'.trans hmarked, id, code ++ [.rotate dest.byte amount], amount, hof, ?_,
      fun i hi => ?_, fun mode core hc => ?_⟩
    · rw [straight_append, hstays.alike.current]
      simp
    · rcases List.mem_append.1 hi with hi | hi
      · exact hserves.calm trivial i hi
      · rw [List.mem_singleton.1 hi]
        trivial
    · -- The register holds the old value, is turned and then holds the new one.
      have hspares := hserves.spares mode core hc
      have hreg := hvalue rfl mode core hc
      have hclaim := (hgrants.claim hspares.coherent (Core.rotateRight
        ((core.executeAll mode code).reg dest.byte) (Core.rotateAmount mode amount))).assigns
      rw [hstorage', hstorage, Core.executeAll_append, ← hreg]
      exact .of_spares hspares hclaim
  all_goals exact .fail (.inr (.inl rfl))

/-! ## The stack -/

theorem fits_push (register : Register) :
    (Instruction.move (.general register.byte) (.special .stack)).Fits ∧
      (Instruction.move (.general register.byte) (.special .stack)).Plain := by
  simp [Instruction.Fits, Instruction.nibbles, Instruction.Plain, Side.index, SpecialRegister.index]

theorem fits_pop (register : Register) :
    (Instruction.move (.special .stack) (.general register.byte)).Fits ∧
      (Instruction.move (.special .stack) (.general register.byte)).Plain := by
  simp [Instruction.Fits, Instruction.nibbles, Instruction.Plain, Side.index, SpecialRegister.index]

theorem yields_pushOperand (hstate : state.Ranged number) (unpinned : state.storage.Unpinned)
    (operand : Operand) :
    Yields number (pushOperand operand) state fun _ after _ => Stays state after := by
  refine (yields_referent operand).bind fun referent _ _ h => ?_
  obtain ⟨rfl, rfl, hin, hof⟩ := h
  refine (yields_supply hstate unpinned.toPins (by simp) hin).bind fun register s items h => ?_
  obtain ⟨⟨code, -, hadv, -⟩, -⟩ := h
  refine (yields_instruct (hadv.ranged hstate) (fits_push register).1 (fits_push register).2).imp
    fun _ after items h => ?_
  exact hadv.stays.trans (.of_alike (hadv.ranged hstate) h.1 h.2.1)

theorem yields_popInto (hstate : state.Ranged number) (unpinned : state.storage.Unpinned)
    (operand : Operand) :
    Yields number (popInto operand) state fun _ after _ => Stays state after := by
  refine (yields_referent operand).bind fun referent _ _ h => ?_
  obtain ⟨rfl, rfl, hin, hof⟩ := h
  rcases referent with ⟨id⟩ | ⟨register⟩ | _ | _ | _
  · refine (yields_bindForWrite hstate unpinned.toPins (by simp) hin false).bind
      fun dest s items h => ?_
    obtain ⟨hstays, -⟩ := h
    refine (yields_markModified (hstays.ranged hstate) id).bind fun _ s' items h => ?_
    have hstays' := hstays.trans h.1
    have hranged := hstays'.ranged hstate
    refine (yields_instruct hranged (fits_pop dest).1 (fits_pop dest).2).imp fun _ after _ h => ?_
    exact hstays'.trans (.of_alike hranged h.1 h.2.1)
  · obtain ⟨held, events, hrun, hserves, -⟩ :=
      Storage.reserve_serves hstate.tidy fun j hj => unpinned.clearable hj
    refine (yields_advance hstate hrun hserves).bind fun _ s items h => ?_
    obtain ⟨-, -, -, hadv⟩ := h
    refine (yields_instruct (hadv.ranged hstate) (fits_pop register).1 (fits_pop register).2).imp
      fun _ after _ h => ?_
    exact hadv.stays.trans (.of_alike (hadv.ranged hstate) h.1 h.2.1)
  all_goals exact .fail (.inr (.inl rfl))

/-! ## Calling by name -/

/-- What a call puts out, and what that does, for all but the functions of the stack. -/
def Called (name : String) (arguments : List Operand) (number : Nat) (state after : BuildState)
    (items : List (Scope × Item)) : Prop :=
  match Builtin.ofName? name, arguments with
  | some .write, [operand] => Written operand state.current state.storage after.storage items
  | some .rotate, [target, _] => Rotated target state.current state.storage after.storage items
  | none, _ => ∃ function code, function? state name = some function ∧
      Flushes state.storage code after.storage ∧
      items = straight state.current code ++ [(state.current, .call function.main number)]
  | _, _ => True

theorem yields_callBuiltin (hstate : state.Ranged number) (unpinned : state.storage.Unpinned)
    {name : String} {builtin : Builtin} (hname : Builtin.ofName? name = some builtin)
    (arguments : List Operand) :
    Yields number (callBuiltin builtin arguments) state fun _ after items =>
      Stays state after ∧ Called name arguments number state after items := by
  unfold callBuiltin Called
  rw [hname]
  split
  · exact yields_write hstate unpinned _
  · exact yields_rotate hstate unpinned _ _
  · exact (yields_pushOperand hstate unpinned _).imp fun _ _ _ h => ⟨h, trivial⟩
  · exact (yields_popInto hstate unpinned _).imp fun _ _ _ h => ⟨h, trivial⟩
  · exact .fail (.inr (.inl rfl))

theorem yields_callFunction (hstate : state.Ranged number) (unpinned : state.storage.Unpinned)
    {name : String} (hname : Builtin.ofName? name = none) (arguments : List Operand) :
    Yields number (callFunction name arguments number) state fun _ after items =>
      Stays state after ∧ Called name arguments number state after items := by
  refine .get ?_
  cases hfunction : function? state name with
  | none => exact .fail (.inr (.inr (.inr rfl)))
  | some function =>
    have hmain := hstate.mains function (List.mem_of_find?_eq_some hfunction)
    by_cases hargs : arguments = []
    · simp only [hargs, if_true]
      refine (yields_flush hstate unpinned).bind fun _ flushed items h => ?_
      obtain ⟨code, rfl, hstays, hflushes⟩ := h
      refine (yields_emitItem (hstays.ranged hstate)
        (show (Item.call function.main number).Fits from trivial) (fun i => by simp)
        (fun l hl => ?_) fun l hl => List.mem_singleton.1 hl).imp fun _ after items h => ?_
      · rw [List.mem_singleton.1 hl, hstays.alike.labels]
        exact hmain
      · obtain ⟨hstays', hstorage, rfl⟩ := h
        refine ⟨hstays.trans hstays', ?_⟩
        simp only [Called, hname]
        refine ⟨function, code, hfunction, ?_, ?_⟩
        · rw [hstorage]
          exact hflushes
        · rw [hstays.alike.current]
    · simp only [hargs, if_false]
      exact .fail (.inr (.inl rfl))

theorem yields_call (hstate : state.Ranged number) (unpinned : state.storage.Unpinned)
    (name : String) (arguments : List Operand) :
    Yields number (call name arguments number) state fun _ after items =>
      Stays state after ∧ Called name arguments number state after items := by
  unfold call
  cases hname : Builtin.ofName? name with
  | some builtin => exact yields_callBuiltin hstate unpinned hname arguments
  | none => exact yields_callFunction hstate unpinned hname arguments

/-! ## Defining functions -/

def Defines (name : String) (number : Nat) (state after : BuildState)
    (items : List (Scope × Item)) : Prop :=
  ∃ block code, state.current = .global ∧ Builtin.ofName? name = none ∧
    function? state name = none ∧ block.kind = .function state.functions.length ∧
    block.line = number ∧
    Continues { state with
      functions := state.functions ++ [⟨name, block.main⟩]
      current := .function state.functions.length
      blocks := block :: state.blocks } after ∧
    Flushes state.storage code after.storage ∧
    items = straight .global code ++
      [(.function state.functions.length, .label block.main number)]

/-- A new function, whose number is the next one, becomes the current one. -/
theorem ranged_define (hstate : state.Ranged number) {labels : Labels} {main : LabelId}
    (hsize : state.labels.size ≤ labels.size) (hmain : main < labels.size) (name : String) :
    BuildState.Ranged number { state with
      labels := labels
      functions := state.functions ++ [⟨name, main⟩]
      current := .function state.functions.length } where
  tidy := hstate.tidy
  forward := hstate.forward
  current := fun id hid => by
    obtain rfl : state.functions.length = id := Scope.function.inj hid
    simp
  mains := fun f hf => by
    rcases List.mem_append.1 hf with hf | hf
    · exact Nat.lt_of_lt_of_le (hstate.mains f hf) hsize
    · rw [List.mem_singleton.1 hf]
      exact hmain
  blocks := fun b hb => (hstate.blocks b hb).of_le hsize (by simp) (Nat.le_refl _)
  declared := hstate.declared

theorem yields_defineFunction (hstate : state.Ranged number) (unpinned : state.storage.Unpinned)
    (hnumber : 1 ≤ number) (name : String) :
    Yields number (defineFunction name number) state fun _ after items =>
      after.Ranged number ∧ Defines name number state after items := by
  refine .get ?_
  split
  · exact .fail (.inr (.inr (.inr rfl)))
  next hcurrent =>
  split
  · exact .fail (.inr (.inr (.inr rfl)))
  next hbuiltin =>
  split
  · exact .fail (.inr (.inr (.inr rfl)))
  next hknown =>
  have hcurrent : state.current = .global := Classical.not_not.1 hcurrent
  refine (yields_flush hstate unpinned).bind fun _ flushed items h => ?_
  obtain ⟨code, rfl, hstays, hflushes⟩ := h
  refine .get ?_
  obtain ⟨main, behind, hblock, hgrows, hlabels⟩ :=
    Block.newFunction_spec flushed.labels name number flushed.functions.length
  simp only
  generalize Block.newFunction flushed.labels name flushed.functions.length number = new
    at hblock hgrows hlabels ⊢
  obtain ⟨block, labels⟩ := new
  obtain rfl : block = _ := hblock
  refine .modify hgrows.size_le ?_
  have hmain : main < labels.size := hlabels main (by simp)
  obtain ⟨opened, hopened⟩ : ∃ s : BuildState, s = { flushed with
    labels := labels
    functions := flushed.functions ++ [⟨name, main⟩]
    current := .function flushed.functions.length } := ⟨_, rfl⟩
  have hc := hstays.continues
  have hfunctions : flushed.functions = state.functions := hc.functions
  have hranged : opened.Ranged number := by
    rw [hopened]
    exact ranged_define (hstays.ranged hstate) hgrows.size_le hmain name
  have hblock : Block.InRange ⟨.function flushed.functions.length, main, behind, number⟩ opened
      number := by
    rw [hopened]
    refine ⟨hlabels, fun id hid => ?_, hnumber, Nat.le_refl _⟩
    obtain rfl : flushed.functions.length = id := BlockKind.function.inj hid
    simp
  have hpushed : Continues { state with
      functions := state.functions ++ [⟨name, main⟩]
      current := .function state.functions.length } opened := by
    rw [hopened, hfunctions]
    exact ⟨hc.labels.trans hgrows, rfl, rfl, hc.blocks, hc.same⟩
  rw [← hopened]
  refine (yields_openBlock hranged hblock (by rw [hopened]; exact hmain)).imp
    fun _ after items h => ?_
  obtain ⟨hafter, hcontinues, hstorage, rfl⟩ := h
  have hkind : BlockKind.function flushed.functions.length = .function state.functions.length := by
    rw [hfunctions]
  refine ⟨hafter, ⟨.function flushed.functions.length, main, behind, number⟩, code, hcurrent,
    Option.not_isSome_iff_eq_none.1 hbuiltin, Option.not_isSome_iff_eq_none.1 hknown, hkind, rfl,
    (hpushed.push _).trans hcontinues, ?_, ?_⟩
  · rw [hstorage, hopened]
    exact hflushes
  · rw [hcurrent, hopened, hfunctions]

end Build

end ByteBasic
