import ByteBasic.Proofs.Machine.Execution
import ByteBasic.Storage.Registers

/-!
# Coherence of storage and machine

The storage says where each variable's value is to be found: in its register if it is bound and
modified, and in its slot otherwise (`Storage.value`). A storage and a core are *coherent* when the
two tables of the storage agree, no two variables share a slot, and a bound variable that is not
modified has the same value in both places.

`Keeps written before core after core'` says that going from one pair to the other is harmless:
the new pair is coherent, no variable has changed its value, memory outside the slots is as it was,
and so are all registers but the ones in `written`. It is reflexive and transitive, and the small
changes that every storage operation is made of keep it:

* `Keeps.store`: a bound variable's register goes to its slot;
* `Keeps.update`: a change of flags that nobody's value depends on;
* `Keeps.unbind`: a variable gives up its register;
* `Keeps.setOwner`, `Keeps.setReg`: a register without a variable changes its holder or its value.

A variable gets a register in one way only (`Grants`): either the register holds its value already
(`Grants.keeps`), or it is written next and the variable marked as modified (`Grants.claim`), which
is the one change that gives a variable a new value (`Writes`).
-/

namespace ByteBasic

/-- What stays of a variable whatever is done with its register. -/
def Variable.identity (var : Variable) : String × Scope × UInt8 :=
  (var.name, var.scope, var.address)

namespace Storage

/-! ## The pair of tables -/

/-- The value of a variable: its register's if it is bound and modified, else its slot's. -/
def value (storage : Storage) (core : Core) (id : VarId) : UInt8 :=
  match (storage.get id).register, (storage.get id).modified with
  | some register, true => core.reg register.byte
  | _, _ => core.mem (storage.get id).address

/-- A variable records a register exactly when it owns it. -/
def Agrees (storage : Storage) : Prop :=
  ∀ id register,
    (storage.get id).register = some register ↔ storage.owner register = some (.variable id)

/-- No two variables have the same slot. -/
def Distinct (storage : Storage) : Prop :=
  ∀ i < storage.vars.length, ∀ j < storage.vars.length,
    (storage.get i).address = (storage.get j).address → i = j

/-- The storage describes the core. -/
structure Coherent (storage : Storage) (core : Core) : Prop where
  agrees : storage.Agrees
  distinct : storage.Distinct
  clean : ∀ id register, (storage.get id).register = some register →
    (storage.get id).modified = false →
      core.reg register.byte = core.mem (storage.get id).address

/-- The two storages have the same variables in the same slots. -/
def SameVars (before after : Storage) : Prop :=
  after.vars.map Variable.identity = before.vars.map Variable.identity

/-- A change that leaves every variable its value. -/
structure Keeps (written : List Register) (before : Storage) (core : Core) (after : Storage)
    (core' : Core) : Prop where
  coherent : after.Coherent core'
  same : SameVars before after
  value : ∀ id < before.vars.length, after.value core' id = before.value core id
  memory : ∀ a, (∀ id < before.vars.length, (before.get id).address ≠ a) → core'.mem a = core.mem a
  registers : ∀ r, r ∉ written → core'.reg r.byte = core.reg r.byte
  rest : core' = { core with registers := core'.registers, memory := core'.memory }

/-- A change that gives one variable a new value, by way of one register. -/
structure Writes (id : VarId) (register : Register) (byte : UInt8) (before : Storage) (core : Core)
    (after : Storage) (core' : Core) : Prop where
  coherent : after.Coherent core'
  same : SameVars before after
  value : after.value core' id = byte
  others : ∀ j < before.vars.length, j ≠ id → after.value core' j = before.value core j
  memory : ∀ a, (∀ j < before.vars.length, (before.get j).address ≠ a) → core'.mem a = core.mem a
  registers : ∀ r, r ≠ register → core'.reg r.byte = core.reg r.byte
  rest : core' = { core with registers := core'.registers, memory := core'.memory }

variable {storage before middle after : Storage} {core core' core'' : Core}
variable {written : List Register} {id : VarId} {register : Register}

/-! ## Variables by their numbers -/

theorem lt_of_register (h : (storage.get id).register = some register) :
    id < storage.vars.length := by
  by_cases hid : id < storage.vars.length
  · exact hid
  · simp [get, List.getElem?_eq_none (Nat.le_of_not_lt hid), Variable.new] at h

theorem get_eq_getElem (h : id < storage.vars.length) : storage.get id = storage.vars[id] := by
  simp [get, h]

theorem get_of_ge (h : storage.vars.length ≤ id) :
    storage.get id = Variable.new "" .global 0 := by
  simp [get, List.getElem?_eq_none h]

/-- What a change leaves alone in the variable it is made to, it leaves alone everywhere. -/
theorem field_update {α : Type} (field : Variable → α) (storage : Storage) (id j : VarId)
    {f : Variable → Variable} (hf : ∀ var, field (f var) = field var) :
    field ((storage.update id f).get j) = field (storage.get j) := by
  simp only [get, update, List.getElem?_modify]
  cases storage.vars[j]? with
  | none => rfl
  | some var => by_cases hj : id = j <;> simp [hj, hf]

@[simp] theorem length_update (storage : Storage) (id : VarId) (f : Variable → Variable) :
    (storage.update id f).vars.length = storage.vars.length := by
  simp [update]

namespace SameVars

theorem refl (storage : Storage) : SameVars storage storage := rfl

theorem trans (h₁ : SameVars before middle) (h₂ : SameVars middle after) :
    SameVars before after := Eq.trans h₂ h₁

theorem length_eq (h : SameVars before after) : after.vars.length = before.vars.length := by
  simpa using congrArg List.length h

theorem identity_eq (h : SameVars before after) (id : VarId) :
    (after.get id).identity = (before.get id).identity := by
  have hmap : (after.vars.map Variable.identity)[id]? =
      (before.vars.map Variable.identity)[id]? := by rw [h]
  rw [List.getElem?_map, List.getElem?_map] at hmap
  unfold get
  cases ha : after.vars[id]? <;> cases hb : before.vars[id]? <;> simp_all

theorem address_eq (h : SameVars before after) (id : VarId) :
    (after.get id).address = (before.get id).address :=
  congrArg (fun identity => identity.2.2) (h.identity_eq id)

theorem names_eq (h : SameVars before after) :
    (after.vars.map fun var => (var.name, var.scope)) =
      before.vars.map fun var => (var.name, var.scope) := by
  have hmap := congrArg (List.map fun identity => (identity.1, identity.2.1)) h
  simp only [List.map_map] at hmap
  exact hmap

theorem lookup?_eq (h : SameVars before after) (name : String) (scope : Scope) :
    after.lookup? name scope = before.lookup? name scope := by
  have hfind : ∀ scope, after.find? name scope = before.find? name scope := by
    intro scope
    have hmap : ∀ storage : Storage, storage.find? name scope =
        (storage.vars.map fun var => (var.name, var.scope)).findIdx? fun known =>
          known.2 == scope && known.1 == name := by
      intro storage
      rw [List.findIdx?_map]
      rfl
    rw [hmap, hmap, h.names_eq]
  unfold lookup?
  rw [hfind, hfind]

theorem update (storage : Storage) (id : VarId) {f : Variable → Variable}
    (hf : ∀ var, (f var).identity = var.identity) : SameVars storage (storage.update id f) := by
  unfold SameVars Storage.update
  apply List.ext_getElem?
  intro i
  simp only [List.getElem?_map, List.getElem?_modify]
  cases storage.vars[i]? with
  | none => rfl
  | some var => by_cases hi : id = i <;> simp [hi, hf]

theorem distinct (h : SameVars before after) (hd : before.Distinct) : after.Distinct := by
  intro i hi j hj hij
  rw [h.length_eq] at hi hj
  rw [h.address_eq, h.address_eq] at hij
  exact hd i hi j hj hij

end SameVars

/-! ## What a coherent pair knows -/

namespace Coherent

/-- The register of a bound variable holds its value, modified or not. -/
theorem reg_eq_value (h : storage.Coherent core) (hr : (storage.get id).register = some register) :
    core.reg register.byte = storage.value core id := by
  unfold Storage.value
  rw [hr]
  cases hm : (storage.get id).modified with
  | true => rfl
  | false => exact h.clean id register hr hm

/-- The slot of a variable that is not both bound and modified holds its value. -/
theorem mem_eq_value (hm : (storage.get id).modified = false) :
    core.mem (storage.get id).address = storage.value core id := by
  unfold Storage.value
  rw [hm]
  cases (storage.get id).register <;> rfl

theorem ne_of_register (h : storage.Coherent core) {other : VarId} {r s : Register}
    (hr : (storage.get id).register = some r) (hs : (storage.get other).register = some s)
    (hne : id ≠ other) : r ≠ s := by
  rintro rfl
  have h₁ := (h.agrees id r).1 hr
  rw [(h.agrees other r).1 hs] at h₁
  exact hne (by simpa using h₁.symm)

end Coherent

theorem value_of_unbound (h : (storage.get id).register = none) :
    storage.value core id = core.mem (storage.get id).address := by
  unfold Storage.value
  rw [h]

/-- Where no variable is held in a register, every core will do. -/
theorem coherent_of_unbound (hvars : ∀ id, (storage.get id).register = none)
    (howners : ∀ r id, storage.owner r ≠ some (.variable id)) (hdistinct : storage.Distinct)
    (core : Core) : storage.Coherent core where
  agrees id r := by
    rw [hvars id]
    exact ⟨fun h => (by cases h), fun h => absurd h (howners r id)⟩
  distinct := hdistinct
  clean id r hr := by
    rw [hvars id] at hr
    cases hr

/-- Slots that count down from the top of memory are all different. -/
theorem distinct_of_address (hlength : storage.vars.length ≤ 255)
    (haddress : ∀ id < storage.vars.length, (storage.get id).address = UInt8.ofNat (255 - id)) :
    storage.Distinct := by
  intro i hi j hj heq
  rw [haddress i hi, haddress j hj, ← UInt8.toNat_inj, UInt8.toNat_ofNat', UInt8.toNat_ofNat']
    at heq
  omega

/-- Where the tables agree and slots are distinct, a core that is all zeros will do. -/
theorem coherent_initial (hagrees : storage.Agrees) (hdistinct : storage.Distinct) :
    storage.Coherent Core.initial where
  agrees := hagrees
  distinct := hdistinct
  clean id r _ _ := by
    have hreg : Core.initial.reg r.byte = 0 := Bank.read_zero _
    have hmem : Core.initial.mem (storage.get id).address = 0 := Bank.read_zero _
    rw [hreg, hmem]

/-- A register that no variable owns is nobody's register. -/
theorem Agrees.register_ne (h : storage.Agrees) (free : ∀ id, storage.owner register ≠
    some (.variable id)) (id : VarId) : (storage.get id).register ≠ some register :=
  fun hr => free id ((h id register).1 hr)

/-! ## Harmless changes -/

namespace Keeps

theorem refl (h : storage.Coherent core) : Keeps written storage core storage core :=
  ⟨h, .refl storage, fun _ _ => rfl, fun _ _ => rfl, fun _ _ => rfl, rfl⟩

theorem trans (h₁ : Keeps written before core middle core')
    (h₂ : Keeps written middle core' after core'') : Keeps written before core after core'' where
  coherent := h₂.coherent
  same := h₁.same.trans h₂.same
  value id hid := by
    rw [h₂.value id (by rw [h₁.same.length_eq]; exact hid), h₁.value id hid]
  memory a ha := by
    rw [h₂.memory a, h₁.memory a ha]
    intro id hid
    rw [h₁.same.length_eq] at hid
    rw [h₁.same.address_eq]
    exact ha id hid
  registers r hr := by rw [h₂.registers r hr, h₁.registers r hr]
  rest := by rw [h₂.rest, h₁.rest]

theorem mono {more : List Register} (h : Keeps written before core after core')
    (hsub : ∀ r ∈ written, r ∈ more) : Keeps more before core after core' :=
  { h with registers := fun r hr => h.registers r fun hw => hr (hsub r hw) }

theorem store (h : storage.Coherent core) (hr : (storage.get id).register = some register) :
    Keeps written storage core
      (storage.update id fun var => { var with modified := false })
      (core.setMem (storage.get id).address (core.reg register.byte)) := by
  have hid := lt_of_register hr
  have hsame : SameVars storage (storage.update id fun var => { var with modified := false }) :=
    .update storage id fun _ => rfl
  -- The slot of every other variable is left alone.
  have hother : ∀ j, j ≠ id → j < storage.vars.length →
      (core.setMem (storage.get id).address (core.reg register.byte)).mem (storage.get j).address =
        core.mem (storage.get j).address := by
    intro j hne hj
    refine Core.mem_setMem_of_ne core (fun e => hne ?_) _
    exact (h.distinct id hid j hj e).symm
  refine ⟨⟨?_, hsame.distinct h.distinct, ?_⟩, hsame, ?_, ?_, fun _ _ => rfl, rfl⟩
  · intro j r
    rw [owner_update, ← h.agrees j r]
    by_cases hj : id = j
    · subst hj
      rw [get_update_self storage hid]
    · rw [get_update_of_ne storage hj]
  · intro j r hjr hm
    by_cases hj : id = j
    · subst hj
      rw [get_update_self storage hid] at hjr ⊢
      rw [Option.some.inj (hjr.symm.trans hr)]
      simp
    · rw [get_update_of_ne storage hj] at hjr hm ⊢
      rw [hother j (Ne.symm hj) (lt_of_register hjr), Core.reg_setMem]
      exact h.clean j r hjr hm
  · intro j hlt
    by_cases hj : id = j
    · subst hj
      -- The value moves from the register to the slot.
      rw [← h.reg_eq_value hr, ← Coherent.mem_eq_value (by rw [get_update_self storage hid]),
        hsame.address_eq]
      simp
    · unfold Storage.value
      rw [get_update_of_ne storage hj]
      cases (storage.get j).register <;> cases (storage.get j).modified <;>
        simp [hother j (Ne.symm hj) hlt]
  · intro a ha
    exact Core.mem_setMem_of_ne core (ha id hid) _

theorem update (h : storage.Coherent core) (id : VarId) {f : Variable → Variable}
    (hid : ∀ var, (f var).identity = var.identity)
    (hreg : ∀ var, (f var).register = var.register)
    (hmod : ∀ var, (f var).modified = var.modified) :
    Keeps written storage core (storage.update id f) core := by
  have hsame : SameVars storage (storage.update id f) := .update storage id hid
  have hregister := fun j => field_update Variable.register storage id j hreg
  have hmodified := fun j => field_update Variable.modified storage id j hmod
  refine ⟨⟨?_, hsame.distinct h.distinct, ?_⟩, hsame, ?_, fun _ _ => rfl, fun _ _ => rfl, rfl⟩
  · intro j r
    rw [hregister, owner_update]
    exact h.agrees j r
  · intro j r
    rw [hregister, hmodified, hsame.address_eq]
    exact h.clean j r
  · intro j _
    unfold Storage.value
    rw [hregister, hmodified, hsame.address_eq]

/-- A variable gives up its register once the slot has its value. -/
theorem unbind (h : storage.Coherent core) (hr : (storage.get id).register = some register)
    (hm : (storage.get id).modified = false) :
    Keeps written storage core
      ((storage.update id fun var => { var with clearable := false, register := none }).setOwner
        register none) core := by
  have hid := lt_of_register hr
  have hsame : SameVars storage
      (storage.update id fun var => { var with clearable := false, register := none }) :=
    .update storage id fun _ => rfl
  refine ⟨⟨?_, hsame.distinct h.distinct, ?_⟩, hsame, ?_, fun _ _ => rfl, fun _ _ => rfl, rfl⟩
  · intro j r
    rw [get_setOwner]
    by_cases hj : id = j
    · subst hj
      rw [get_update_self storage hid]
      by_cases hrr : register = r
      · subst hrr
        simp
      · -- It records no register now, and is the owner of no other one either.
        rw [owner_setOwner_of_ne _ hrr, owner_update]
        simp only [reduceCtorEq, false_iff]
        intro howner
        have := (h.agrees id r).2 howner
        rw [hr] at this
        exact hrr (Option.some.inj this)
    · rw [get_update_of_ne storage hj]
      by_cases hrr : register = r
      · subst hrr
        simp only [owner_setOwner_self, reduceCtorEq, iff_false]
        intro hjr
        exact h.ne_of_register hr hjr hj rfl
      · rw [owner_setOwner_of_ne _ hrr, owner_update]
        exact h.agrees j r
  · intro j r hjr
    rw [get_setOwner] at hjr ⊢
    by_cases hj : id = j
    · subst hj
      rw [get_update_self storage hid] at hjr
      simp at hjr
    · rw [get_update_of_ne storage hj] at hjr ⊢
      exact h.clean j r hjr
  · intro j _
    by_cases hj : id = j
    · subst hj
      -- Its value is what the slot holds, which was up to date.
      rw [value_of_unbound (by rw [get_setOwner, get_update_self storage hid]), get_setOwner,
        hsame.address_eq, Coherent.mem_eq_value hm]
    · unfold Storage.value
      rw [get_setOwner, get_update_of_ne storage hj]

theorem setOwner (h : storage.Coherent core) {owner : Option Owner}
    (free : ∀ id, storage.owner register ≠ some (.variable id))
    (hnew : ∀ id, owner ≠ some (.variable id)) :
    Keeps written storage core (storage.setOwner register owner) core := by
  refine ⟨⟨?_, h.distinct, fun j r => h.clean j r⟩, .refl storage, fun _ _ => rfl, fun _ _ => rfl,
    fun _ _ => rfl, rfl⟩
  intro j r
  rw [get_setOwner]
  by_cases hrr : register = r
  · subst hrr
    rw [owner_setOwner_self]
    exact ⟨fun hjr => absurd hjr (h.agrees.register_ne free j), fun ho => absurd ho (hnew j)⟩
  · rw [owner_setOwner_of_ne _ hrr]
    exact h.agrees j r

theorem setReg (h : storage.Coherent core)
    (free : ∀ id, storage.owner register ≠ some (.variable id)) (v : UInt8)
    (hw : register ∈ written) :
    Keeps written storage core storage (core.setReg register.byte v) := by
  have hreg : ∀ j r, (storage.get j).register = some r →
      (core.setReg register.byte v).reg r.byte = core.reg r.byte := by
    intro j r hjr
    refine Core.reg_setReg_of_ne core (fun e => ?_) v
    subst e
    exact h.agrees.register_ne free j hjr
  refine ⟨⟨h.agrees, h.distinct, ?_⟩, .refl storage, ?_, fun _ _ => rfl, ?_, rfl⟩
  · intro j r hjr hm
    rw [hreg j r hjr]
    exact h.clean j r hjr hm
  · intro j _
    unfold Storage.value
    cases hjr : (storage.get j).register with
    | none => rfl
    | some r => cases (storage.get j).modified <;> simp [hreg j r hjr]
  · intro r hr
    exact Core.reg_setReg_of_ne core (fun e => hr (by rw [← e]; exact hw)) v

end Keeps

/-! ## A variable gets a register -/

/-- `after` differs from `before` only in that a variable is bound to a register. -/
structure Grants (id : VarId) (register : Register) (before after : Storage) : Prop where
  same : SameVars before after
  agrees : after.Agrees
  register : (after.get id).register = some register
  modified : (after.get id).modified = (before.get id).modified
  others : ∀ j, j ≠ id → (after.get j).register = (before.get j).register ∧
    (after.get j).modified = (before.get j).modified

/-- Recording a register that no other variable owns. -/
theorem grants_setOwner (ha : storage.Agrees) (hid : id < storage.vars.length)
    (hnone : (storage.get id).register = none)
    (free : ∀ j, storage.owner register ≠ some (.variable j)) :
    Grants id register storage
      ((storage.update id fun var =>
        { var with clearable := false, register := some register }).setOwner register
          (some (.variable id))) where
  same := SameVars.update storage id fun _ => rfl
  agrees j r := by
    rw [get_setOwner]
    by_cases hrr : register = r
    · subst hrr
      rw [owner_setOwner_self, Option.some.injEq, Owner.variable.injEq]
      by_cases hj : id = j
      · subst hj
        rw [get_update_self storage hid]
        simp
      · rw [get_update_of_ne storage hj]
        exact ⟨fun h => absurd h (ha.register_ne free j), fun h => absurd h hj⟩
    · rw [owner_setOwner_of_ne _ hrr, owner_update]
      by_cases hj : id = j
      · subst hj
        rw [get_update_self storage hid, ← ha id r, hnone]
        simp [hrr]
      · rw [get_update_of_ne storage hj]
        exact ha j r
  register := by rw [get_setOwner, get_update_self storage hid]
  modified := by rw [get_setOwner, get_update_self storage hid]
  others j hj := by
    rw [get_setOwner, get_update_of_ne storage (Ne.symm hj)]
    exact ⟨rfl, rfl⟩

namespace Grants

theorem refl (h : storage.Agrees) (hr : (storage.get id).register = some register) :
    Grants id register storage storage :=
  ⟨.refl storage, h, hr, rfl, fun _ _ => ⟨rfl, rfl⟩⟩

theorem register_ne (g : Grants id register before after) {j : VarId} (hj : j ≠ id)
    {r : Register} (hr : (before.get j).register = some r) : register ≠ r := by
  rintro rfl
  rw [← (g.others j hj).1] at hr
  have h₁ := (g.agrees j register).1 hr
  rw [(g.agrees id register).1 g.register] at h₁
  exact hj (by simpa using h₁.symm)

/-- A register that already holds the variable's value may be given to it. -/
theorem keeps (g : Grants id register before after) (h : before.Coherent core)
    (hv : core.reg register.byte = before.value core id) :
    Keeps written before core after core := by
  refine ⟨⟨g.agrees, g.same.distinct h.distinct, ?_⟩, g.same, ?_, fun _ _ => rfl, fun _ _ => rfl,
    rfl⟩
  · intro j r hjr hm
    rw [g.same.address_eq]
    by_cases hj : j = id
    · subst hj
      rw [← Option.some.inj (g.register.symm.trans hjr), hv,
        Coherent.mem_eq_value (g.modified.symm.trans hm)]
    · rw [(g.others j hj).1] at hjr
      rw [(g.others j hj).2] at hm
      exact h.clean j r hjr hm
  · intro j _
    by_cases hj : j = id
    · subst hj
      unfold Storage.value at hv ⊢
      rw [g.register, g.modified, g.same.address_eq]
      cases hm : (before.get j).modified with
      | true => exact hv.trans (by rw [hm])
      | false => cases (before.get j).register <;> rfl
    · unfold Storage.value
      rw [(g.others j hj).1, (g.others j hj).2, g.same.address_eq]

/-- Writing the register of a variable that is then marked as modified gives it that value. -/
theorem claim (g : Grants id register before after) (h : before.Coherent core) (v : UInt8) :
    Writes id register v before core (after.update id fun var => { var with modified := true })
      (core.setReg register.byte v) := by
  have hid := lt_of_register g.register
  have hsame : SameVars after (after.update id fun var => { var with modified := true }) :=
    .update after id fun _ => rfl
  have hother : ∀ j, j ≠ id →
      (after.update id fun var => { var with modified := true }).get j = after.get j :=
    fun j hj => get_update_of_ne after (Ne.symm hj) _
  -- The registers of the other variables are not the one that is written.
  have hreg : ∀ j, j ≠ id → ∀ r, (before.get j).register = some r →
      (core.setReg register.byte v).reg r.byte = core.reg r.byte :=
    fun j hj r hr => Core.reg_setReg_of_ne core (g.register_ne hj hr) v
  refine ⟨⟨?_, hsame.distinct (g.same.distinct h.distinct), ?_⟩, g.same.trans hsame, ?_, ?_,
    fun _ _ => rfl, fun r hr => Core.reg_setReg_of_ne core (Ne.symm hr) v, rfl⟩
  · intro j r
    rw [owner_update, ← g.agrees j r]
    by_cases hj : j = id
    · subst hj
      rw [get_update_self after hid]
    · rw [hother j hj]
  · intro j r hjr hm
    by_cases hj : j = id
    · subst hj
      rw [get_update_self after hid] at hm
      simp at hm
    · rw [hother j hj] at hjr hm ⊢
      rw [(g.others j hj).1] at hjr
      rw [(g.others j hj).2] at hm
      rw [hreg j hj r hjr, g.same.address_eq]
      exact h.clean j r hjr hm
  · -- The variable has the new value, and the others have what they had.
    unfold Storage.value
    rw [get_update_self after hid, g.register]
    simp
  · intro j _ hj
    unfold Storage.value
    rw [hother j hj, (g.others j hj).1, (g.others j hj).2, g.same.address_eq]
    cases hjr : (before.get j).register with
    | none => rfl
    | some r => cases (before.get j).modified <;> simp [hreg j hj r hjr]

end Grants

/-- A harmless change before a write is part of it. -/
theorem Writes.of_keeps {byte : UInt8} (hk : Keeps [] before core middle core')
    (hw : Writes id register byte middle core' after core'') :
    Writes id register byte before core after core'' where
  coherent := hw.coherent
  same := hk.same.trans hw.same
  value := hw.value
  others j hj hne := by
    rw [hw.others j (by rw [hk.same.length_eq]; exact hj) hne, hk.value j hj]
  memory a ha := by
    rw [hw.memory a, hk.memory a ha]
    intro j hj
    rw [hk.same.length_eq] at hj
    rw [hk.same.address_eq]
    exact ha j hj
  registers r hr := by rw [hw.registers r hr, hk.registers r (by simp)]
  rest := by rw [hw.rest, hk.rest]

end Storage

end ByteBasic
