import ByteBasic.Proofs.Storage.Operations

/-!
# No operation loses a value

**Theorem (`storage_keeps_values`).** Take a coherent pair of a storage and a core, and any
operation that loads, writes back, releases, finds, holds or gives up registers. Executing the code
that the operation puts out, in order, gives a coherent pair again, in which every variable has the
value it had, memory outside the slots is as it was, and no register has changed but the target of a
load, which holds the variable's value if the load succeeded. The same follows for every sequence of
operations, whether they succeed or fail.

A variable gets a new value in one way: it is bound to a register, an instruction writes that
register, and the variable is marked as modified. That too is part of the theorem.

The proof goes through `Harmless`, which is `Keeps` for the outcome of an operation. Everything that
takes a register away is a write-back and a release (`keeps_saved`, `keeps_released`), in that order.
-/

namespace ByteBasic.Storage

variable {α : Type} {mode : RotateMode} {storage : Storage} {core : Core}
variable {written : List Register} {id : VarId} {register : Register}

/-- Executing what an operation has put out leaves every variable its value. -/
def Harmless (mode : RotateMode) (written : List Register) (storage : Storage) (core : Core)
    (outcome : Outcome StorageError Storage StorageEvent α) : Prop :=
  Keeps written storage core outcome.state (core.executeAll mode (code outcome.output))

/-! ## Writing back and releasing -/

theorem keeps_saved (h : storage.Coherent core) (id : VarId) :
    Keeps written storage core (storage.saved id)
      (core.executeAll mode (code (storage.writeBackCode id))) := by
  cases hm : (storage.get id).modified with
  | false =>
    rw [saved_eq_self hm, writeBackCode_clean hm]
    exact .refl h
  | true =>
    cases hr : (storage.get id).register with
    | none =>
      rw [writeBackCode_unbound hr]
      simpa [saved, hr] using Keeps.refl h
    | some r =>
      simp only [saved, writeBackCode, hr, hm]
      exact .store h hr

theorem modified_saved (hr : (storage.get id).register = some register) :
    ((storage.saved id).get id).modified = false := by
  unfold saved
  rw [hr]
  simp only [get_update_self storage (lt_of_register hr)]

theorem keeps_released (h : storage.Coherent core)
    (hr : (storage.get id).register = some register) :
    Keeps written storage core (storage.released id register)
      (core.executeAll mode (code (storage.writeBackCode id))) := by
  have hsaved : Keeps written storage core (storage.saved id)
      (core.executeAll mode (code (storage.writeBackCode id))) := keeps_saved h id
  refine hsaved.trans ?_
  have hun : Keeps written (storage.saved id) _ _ _ := Keeps.unbind hsaved.coherent
    (by rw [register_saved]; exact hr) (modified_saved hr)
  have hstate : storage.released id register =
      ((storage.saved id).update id fun var =>
        { var with clearable := false, register := none }).setOwner register none := by
    simp only [released, saved, hr, update_update]
  rw [hstate]
  exact hun

theorem keeps_vacated (h : storage.Coherent core) (id : VarId) :
    Keeps written storage core (storage.vacated id)
      (core.executeAll mode (code (storage.writeBackCode id))) := by
  unfold vacated
  cases hr : (storage.get id).register with
  | none =>
    rw [writeBackCode_unbound hr]
    exact .refl h
  | some r => exact keeps_released h hr

/-! ## What a release leaves -/

theorem get_released_self (hr : (storage.get id).register = some register) :
    (storage.released id register).get id =
      { storage.get id with modified := false, clearable := false, register := none } := by
  unfold released
  rw [get_setOwner, get_update_self storage (lt_of_register hr)]

theorem get_released_of_ne {j : VarId} (hj : j ≠ id) (r : Register) :
    (storage.released id r).get j = storage.get j := by
  unfold released
  rw [get_setOwner, get_update_of_ne storage (Ne.symm hj)]

@[simp] theorem owner_released_self (storage : Storage) (id : VarId) (r : Register) :
    (storage.released id r).owner r = none :=
  owner_setOwner_self _ r none

theorem owner_released_of_ne {r s : Register} (h : r ≠ s) :
    (storage.released id r).owner s = storage.owner s := by
  unfold released
  rw [owner_setOwner_of_ne _ h, owner_update]

theorem register_vacated (storage : Storage) (id : VarId) :
    ((storage.vacated id).get id).register = none := by
  unfold vacated
  cases hr : (storage.get id).register with
  | none => exact hr
  | some r =>
    simp only
    rw [get_released_self hr]

theorem owner_vacated (free : storage.owner register = none) :
    (storage.vacated id).owner register = none := by
  unfold vacated
  cases (storage.get id).register with
  | none => exact free
  | some r =>
    by_cases h : r = register
    · subst h
      exact owner_released_self storage id r
    · exact (owner_released_of_ne h).trans free

/-- Binding a variable to a free register, after it has given up its old one. -/
theorem grants_bound (h : (storage.vacated id).Agrees) (hid : id < (storage.vacated id).vars.length)
    (free : storage.owner register = none) :
    Grants id register (storage.vacated id) ((storage.vacated id).bound id register) :=
  grants_setOwner h hid (register_vacated storage id) fun j => by
    rw [owner_vacated free]
    simp

/-! ## The operations one by one -/

theorem Harmless.trans {β : Type} {outcome : Outcome StorageError Storage StorageEvent α}
    {later : Outcome StorageError Storage StorageEvent β}
    (h₁ : Harmless mode written storage core outcome)
    (h₂ : Harmless mode written outcome.state (core.executeAll mode (code outcome.output)) later) :
    Harmless mode written storage core
      (⟨later.result, later.state, outcome.output ++ later.output⟩ :
        Outcome StorageError Storage StorageEvent β) := by
  unfold Harmless at h₁ h₂ ⊢
  simp only [code_append, Core.executeAll_append]
  exact h₁.trans h₂

theorem harmless_writeBack (h : storage.Coherent core) (id : VarId) :
    Harmless mode written storage core ((writeBack id).run storage) := by
  rw [run_writeBack_saved]
  exact keeps_saved h id

theorem harmless_release (h : storage.Coherent core) (id : VarId) (register : Register) :
    Harmless mode written storage core ((release id register).run storage) := by
  by_cases hr : (storage.get id).register = some register
  · rw [run_release hr]
    exact keeps_released h hr
  · rw [run_release_other hr]
    exact Keeps.refl h

theorem harmless_allowEviction (h : storage.Coherent core) (id : VarId) :
    Harmless mode written storage core ((allowEviction id).run storage) :=
  Keeps.update h id (fun _ => rfl) (fun _ => rfl) fun _ => rfl

theorem keeps_fixed (h : storage.Coherent core) (id : VarId) :
    Keeps written storage core (storage.fixed id) core :=
  Keeps.update h id (fun _ => rfl) (fun _ => rfl) fun _ => rfl

theorem harmless_pick (h : storage.Coherent core) (start : Nat) :
    Harmless mode written storage core ((pick start).run storage) := by
  generalize hout : (pick start).run storage = outcome
  have hp := picked h.agrees start
  rw [hout] at hp
  cases hp with
  | free r _ _ => exact Keeps.refl h
  | evicted r id note _ howner _ => exact keeps_released h ((h.agrees id r).2 howner)
  | exhausted _ => exact Keeps.refl h

/-- A register that was picked has no owner left. -/
theorem owner_of_pick (ha : storage.Agrees) {start : Nat} {state : Storage}
    {output : List StorageEvent} (h : (pick start).run storage = ⟨.ok register, state, output⟩) :
    start ≤ register.val ∧ state.owner register = none := by
  have hp := picked ha start
  rw [h] at hp
  cases hp with
  | free _ hstart hfree => exact ⟨hstart, hfree⟩
  | evicted _ id _ hstart _ _ => exact ⟨hstart, owner_released_self storage id register⟩

theorem harmless_scratch (h : storage.Coherent core) :
    Harmless mode written storage core (scratch.run storage) := by
  have hpick : Harmless mode written storage core _ := harmless_pick h 1
  unfold scratch
  rw [Action.run_bind]
  rcases hout : (pick 1).run storage with ⟨_ | register, state, output⟩
  · rw [hout] at hpick
    exact hpick
  · rw [hout] at hpick
    have hfree := (owner_of_pick h.agrees hout).2
    refine hpick.trans ?_
    exact Keeps.setOwner hpick.coherent (fun j => by rw [hfree]; simp) fun j => by simp

theorem harmless_reserve (h : storage.Coherent core) (register : Register) :
    Harmless mode written storage core ((reserve register).run storage) := by
  by_cases hvar : ∃ id, storage.owner register = some (.variable id)
  · obtain ⟨id, howner⟩ := hvar
    rw [run_reserve_variable h.agrees howner]
    have hrel : Keeps written storage core _ (core.executeAll mode _) :=
      keeps_released h ((h.agrees id register).2 howner)
    refine hrel.trans (Keeps.setOwner hrel.coherent (fun j => ?_) fun j => by simp)
    rw [owner_released_self]
    simp
  · have hother : ∀ id, storage.owner register ≠ some (.variable id) :=
      fun id ho => hvar ⟨id, ho⟩
    rw [run_reserve_other hother]
    exact Keeps.setOwner h hother fun j => by simp

theorem run_forM_cons {β : Type} (f : β → StorageM Unit) (x : β) (xs : List β) (storage : Storage) :
    ((x :: xs).forM f).run storage = ((f x).run storage).andThen fun _ => xs.forM f := rfl

theorem harmless_flushAt (h : storage.Coherent core) (register : Register) :
    Harmless mode written storage core ((flushAt register).run storage) := by
  rcases howner : storage.owner register with _ | ⟨id⟩ | _
  · rw [run_flushAt_free howner]
    exact Keeps.refl h
  · rw [run_flushAt_variable h.agrees howner]
    exact keeps_released h ((h.agrees id register).2 howner)
  · rw [run_flushAt_temporary howner]
    exact Keeps.setOwner h (fun j => by rw [howner]; simp) fun j => by simp

/-- Giving up registers in turn: what one leaves, the next starts from. -/
theorem harmless_flushAll (h : storage.Coherent core) (registers : List Register) :
    Harmless mode written storage core ((registers.forM flushAt).run storage) := by
  induction registers generalizing storage core with
  | nil => exact Keeps.refl h
  | cons r rest ih =>
    have hfirst : Harmless mode written storage core _ := harmless_flushAt h r
    rw [run_forM_cons]
    rcases hout : (flushAt r).run storage with ⟨_ | _, state, output⟩
    · rw [hout] at hfirst
      exact hfirst
    · rw [hout] at hfirst
      exact hfirst.trans (ih hfirst.coherent)

theorem harmless_flush (h : storage.Coherent core) :
    Harmless mode written storage core (flush.run storage) :=
  harmless_flushAll h (List.finRange 16)

theorem keeps_endStatementAt (h : storage.Coherent core) (register : Register) :
    Keeps written storage core (endStatementAt register storage) core := by
  unfold endStatementAt
  rcases howner : storage.owner register with _ | ⟨id⟩ | _
  · exact .refl h
  · exact .update h id (fun _ => rfl) (fun _ => rfl) fun _ => rfl
  · exact .setOwner h (fun j => by rw [howner]; simp) fun j => by simp

theorem keeps_endStatementAll (h : storage.Coherent core) (registers : List Register) :
    Keeps written storage core
      (registers.foldl (fun storage register => endStatementAt register storage) storage) core := by
  induction registers generalizing storage with
  | nil => exact .refl h
  | cons r rest ih =>
    have hfirst : Keeps written storage core _ core := keeps_endStatementAt h r
    exact hfirst.trans (ih hfirst.coherent)

theorem harmless_endStatement (h : storage.Coherent core) :
    Harmless mode written storage core (endStatement.run storage) := by
  unfold endStatement Harmless
  generalize List.finRange 16 = registers
  simp only [Action.run_modify, code_nil, Core.executeAll_nil]
  exact keeps_endStatementAll h registers

/-! ## Loading and binding -/

theorem register_cases (ha : storage.Agrees) (id : VarId) (register : Register) :
    (storage.get id).register = some register ∨
      (storage.get id).register ≠ some register ∧ storage.owner register = none ∨
      (storage.get id).register ≠ some register ∧
        ∃ owner, storage.owner register = some owner ∧ owner ≠ .variable id := by
  by_cases hr : (storage.get id).register = some register
  · exact .inl hr
  · cases howner : storage.owner register with
    | none => exact .inr (.inl ⟨hr, rfl⟩)
    | some owner =>
      refine .inr (.inr ⟨hr, owner, rfl, ?_⟩)
      rintro rfl
      exact hr ((ha id register).2 howner)

/-- Once a variable is written back, its slot has its value. -/
theorem mem_writeBackCode (h : storage.Coherent core) (hid : id < storage.vars.length) :
    (core.executeAll mode (code (storage.writeBackCode id))).mem (storage.get id).address =
      storage.value core id := by
  have hk : Keeps [] storage core (storage.vacated id) (core.executeAll mode _) :=
    keeps_vacated h id
  rw [← hk.value id hid, value_of_unbound (register_vacated storage id), hk.same.address_eq]

theorem executeAll_load (mode : RotateMode) (events : List StorageEvent) (r a : UInt8)
    (core : Core) :
    core.executeAll mode (code (events ++ [.code (.loadMem r a)])) =
      (core.executeAll mode (code events)).setReg r
        ((core.executeAll mode (code events)).mem a) := by
  rw [code_append, Core.executeAll_append]
  rfl

theorem harmless_load (h : storage.Coherent core) (hid : id < storage.vars.length)
    (register : Register) (keep : Bool) :
    Harmless mode [register] storage core ((load id register keep).run storage) := by
  rcases register_cases h.agrees id register with hr | ⟨hne, free⟩ | ⟨hne, owner, howner, hother⟩
  · rw [run_load_here hr]
    exact Keeps.refl h
  · cases keep with
    | false =>
      rw [run_load_copy hne free]
      unfold Harmless
      rw [executeAll_load]
      have hsaved : Keeps [register] storage core (storage.saved id) (core.executeAll mode _) :=
        keeps_saved h id
      refine hsaved.trans (Keeps.setReg hsaved.coherent (fun j => ?_) _ (by simp))
      rw [owner_saved, free]
      simp
    | true =>
      rw [run_load_keep hne free]
      unfold Harmless
      rw [executeAll_load]
      -- First the old register is given up, then the free one gets the value and its owner.
      have hvac : Keeps [register] storage core (storage.vacated id) (core.executeAll mode _) :=
        keeps_vacated h id
      have hset : Keeps [register] (storage.vacated id) _ _ _ := Keeps.setReg hvac.coherent
        (fun j => by rw [owner_vacated free]; simp)
        ((core.executeAll mode (code (storage.writeBackCode id))).mem (storage.get id).address)
        (by simp)
      have hgrant := grants_bound hvac.coherent.agrees (by rw [hvac.same.length_eq]; exact hid) free
      refine hvac.trans (hset.trans (hgrant.keeps hset.coherent ?_))
      rw [Core.reg_setReg_self, value_of_unbound (register_vacated storage id), Core.mem_setReg,
        hvac.same.address_eq]
  · rw [run_load_held hne howner hother]
    exact Keeps.refl h

/-- The target of a load that succeeds holds the variable's value. -/
theorem reg_load (h : storage.Coherent core) (hid : id < storage.vars.length) {keep : Bool}
    (hok : ((load id register keep).run storage).result = .ok ()) :
    (core.executeAll mode (code ((load id register keep).run storage).output)).reg register.byte =
      storage.value core id := by
  rcases register_cases h.agrees id register with hr | ⟨hne, free⟩ | ⟨hne, owner, howner, hother⟩
  · rw [run_load_here hr]
    exact h.reg_eq_value hr
  · have hmem : (core.executeAll mode _).mem _ = _ := mem_writeBackCode h hid
    cases keep with
    | false => rw [run_load_copy hne free, executeAll_load, Core.reg_setReg_self, hmem]
    | true => rw [run_load_keep hne free, executeAll_load, Core.reg_setReg_self, hmem]
  · rw [run_load_held hne howner hother] at hok
    cases hok

/-- A binding that succeeds is a harmless change followed by the grant of the register. -/
theorem grants_bind (h : storage.Coherent core) (hid : id < storage.vars.length)
    (hok : ((Storage.bind id register true).run storage).result = .ok ()) :
    ∃ middle, Keeps [] storage core middle
        (core.executeAll mode (code ((Storage.bind id register true).run storage).output)) ∧
      Grants id register middle ((Storage.bind id register true).run storage).state := by
  rcases register_cases h.agrees id register with hr | ⟨hne, free⟩ | ⟨hne, owner, howner, hother⟩
  · rw [run_bind_here hr]
    have hk : Keeps [] storage core _ core := keeps_fixed h id
    exact ⟨storage.fixed id, hk, .refl hk.coherent.agrees (by rw [register_fixed]; exact hr)⟩
  · rw [run_bind_free hne free]
    have hk : Keeps [] storage core _ (core.executeAll mode _) := keeps_vacated h id
    exact ⟨storage.vacated id, hk,
      grants_bound hk.coherent.agrees (by rw [hk.same.length_eq]; exact hid) free⟩
  · rw [run_bind_held hne howner hother] at hok
    cases hok

/-! ## Sequences of operations -/

/-- The operations that move values between registers and slots without changing them. -/
inductive Operation
  | load (id : VarId) (register : Register) (keep : Bool)
  | writeBack (id : VarId)
  | allowEviction (id : VarId)
  | release (id : VarId) (register : Register)
  | pick (start : Nat)
  | scratch
  | reserve (register : Register)
  | endStatement
  | flush
  deriving DecidableEq

namespace Operation

/-- The operation itself, whatever register it finds. -/
def action : Operation → StorageM Unit
  | .load id register keep => Storage.load id register keep
  | .writeBack id => Storage.writeBack id
  | .allowEviction id => Storage.allowEviction id
  | .release id register => Storage.release id register
  | .pick start => do
    let _ ← Storage.pick start
    return ()
  | .scratch => do
    let _ ← Storage.scratch
    return ()
  | .reserve register => Storage.reserve register
  | .endStatement => Storage.endStatement
  | .flush => Storage.flush

def InRange (storage : Storage) : Operation → Prop
  | .load id _ _ => id < storage.vars.length
  | .writeBack id => id < storage.vars.length
  | .allowEviction id => id < storage.vars.length
  | .release id _ => id < storage.vars.length
  | _ => True

/-- The register that an operation may write. -/
def target : Operation → List Register
  | .load _ register _ => [register]
  | _ => []

end Operation

/-- The storage and the core after operations, each with its code executed. -/
def perform (mode : RotateMode) : List Operation → Storage → Core → Storage × Core
  | [], storage, core => (storage, core)
  | operation :: rest, storage, core =>
    let outcome := operation.action.run storage
    perform mode rest outcome.state (core.executeAll mode (code outcome.output))

theorem Harmless.discard {x : StorageM α} (h : Harmless mode written storage core (x.run storage)) :
    Harmless mode written storage core ((do let _ ← x; return () : StorageM Unit).run storage) := by
  rw [Action.run_bind]
  generalize x.run storage = outcome at h ⊢
  rcases outcome with ⟨_ | a, state, output⟩
  · exact h
  · unfold Harmless at h ⊢
    rw [Outcome.andThen_ok]
    simpa using h

theorem harmless_operation (h : storage.Coherent core) (operation : Operation)
    (hin : operation.InRange storage) :
    Harmless mode operation.target storage core (operation.action.run storage) := by
  cases operation with
  | load id register keep => exact harmless_load h hin register keep
  | writeBack id => exact harmless_writeBack h id
  | allowEviction id => exact harmless_allowEviction h id
  | release id register => exact harmless_release h id register
  | pick start => exact (harmless_pick h start).discard
  | scratch => exact (harmless_scratch h).discard
  | reserve register => exact harmless_reserve h register
  | endStatement => exact harmless_endStatement h
  | flush => exact harmless_flush h

theorem Operation.InRange.of_sameVars {after : Storage} {operation : Operation}
    (hin : operation.InRange storage) (same : SameVars storage after) :
    operation.InRange after := by
  cases operation <;> simp_all [Operation.InRange, same.length_eq]

theorem keeps_perform (operations : List Operation) (h : storage.Coherent core)
    (hin : ∀ operation ∈ operations, operation.InRange storage) :
    Keeps (operations.flatMap Operation.target) storage core
      (perform mode operations storage core).1 (perform mode operations storage core).2 := by
  induction operations generalizing storage core with
  | nil => exact .refl h
  | cons operation rest ih =>
    have hfirst : Harmless mode operation.target storage core _ :=
      harmless_operation h operation (hin operation (by simp))
    have hrest := ih hfirst.coherent fun later hl => (hin later (by simp [hl])).of_sameVars hfirst.same
    rw [List.flatMap_cons]
    exact (hfirst.mono fun r hr => List.mem_append_left _ hr).trans
      (hrest.mono fun r hr => List.mem_append_right _ hr)

/-- **No operation loses a value.** From a coherent pair, every operation and every sequence of
operations keeps the pair coherent and all values as they were, and a load that succeeds puts the
variable's value into its register; binding a variable, writing its register and marking it as
modified gives that variable the value written and leaves all others theirs. -/
theorem storage_keeps_values (mode : RotateMode) (storage : Storage) (core : Core)
    (h : storage.Coherent core) :
    (∀ operation : Operation, operation.InRange storage →
      Keeps operation.target storage core (operation.action.run storage).state
          (core.executeAll mode (code (operation.action.run storage).output)) ∧
        ∀ id register keep, operation = .load id register keep →
          (operation.action.run storage).result = .ok () →
            (core.executeAll mode (code (operation.action.run storage).output)).reg register.byte =
              storage.value core id) ∧
    (∀ operations : List Operation, (∀ operation ∈ operations, operation.InRange storage) →
      Keeps (operations.flatMap Operation.target) storage core
        (perform mode operations storage core).1 (perform mode operations storage core).2) ∧
    ∀ (id : VarId) (register : Register), id < storage.vars.length →
      ((Storage.bind id register true).run storage).result = .ok () →
      ∀ (instruction : Instruction) (byte : UInt8) (bound : Core),
        bound = core.executeAll mode (code ((Storage.bind id register true).run storage).output) →
        bound.execute mode instruction = (bound.setReg register.byte byte, none) →
        Writes id register byte storage core
          ((markModified id).run ((Storage.bind id register true).run storage).state).state
          (bound.execute mode instruction).1 := by
  refine ⟨fun operation hin => ⟨harmless_operation h operation hin, ?_⟩,
    fun operations hin => keeps_perform operations h hin, ?_⟩
  · rintro id register keep rfl hok
    exact reg_load h hin hok
  · rintro id register hid hok instruction byte bound rfl hexec
    rw [hexec]
    obtain ⟨middle, hk, hg⟩ : ∃ middle, Keeps [] storage core middle (core.executeAll mode _) ∧ _ :=
      grants_bind h hid hok
    exact .of_keeps hk (hg.claim hk.coherent byte)

/-- Two variables that are nowhere held: the first is loaded, evicted and flushed and keeps the value
of its slot, and the second gets a new value. -/
theorem storage_keeps_values_two_variables :
    let storage : Storage :=
      ⟨[.new "x" .global 255, .new "y" .global 254], Vector.replicate 16 none⟩
    let core := Core.initial.setMem 255 7
    let operations : List Operation := [.load 0 1 true, .reserve 1, .scratch, .flush]
    storage.Coherent core ∧ (∀ operation ∈ operations, operation.InRange storage) ∧
      (core.executeAll .singleBit (code ((load 0 1 true).run storage).output)).reg 1 = 7 ∧
      (perform .singleBit operations storage core).1.value
        (perform .singleBit operations storage core).2 0 = 7 ∧
      Writes 1 2 9 storage core
        ((markModified 1).run ((Storage.bind 1 2 true).run storage).state).state
        (core.execute .singleBit (.load 2 9)).1 := by
  intro storage core operations
  have hget : ∀ id, (storage.get id).register = none := by
    intro id
    match id with
    | 0 => rfl
    | 1 => rfl
    | n + 2 => rfl
  -- No register is held, so any core will do.
  have hcoherent : storage.Coherent core := by
    refine coherent_of_unbound hget (fun r id => ?_) ?_ core
    · revert r
      simp [storage, owner]
    · intro i hi j hj
      have hi : i < 2 := hi
      have hj : j < 2 := hj
      revert i j
      decide
  have hin : ∀ operation ∈ operations, operation.InRange storage := by
    simp [operations, Operation.InRange, storage]
  have hx : storage.value core 0 = 7 :=
    (value_of_unbound (hget 0)).trans (Core.mem_setMem_self Core.initial 255 7)
  obtain ⟨hone, hall, hwrite⟩ := storage_keeps_values .singleBit storage core hcoherent
  refine ⟨hcoherent, hin, ?_, ?_, ?_⟩
  · exact ((hone (.load 0 1 true) (hin _ (by simp [operations]))).2 0 1 true rfl rfl).trans hx
  · exact ((hall operations hin).value 0 (by decide)).trans hx
  · exact hwrite 1 2 (by decide) rfl (.load 2 9) 9 core rfl rfl

end ByteBasic.Storage
