import ByteBasic.Proofs.Compiler.Operands

/-!
# New values

What a statement is for is to give one destination a new value: a variable, wherever that is kept, a
register, a memory cell or a port. `Updates` says this of a change, and that nothing else which the
program can see has changed: no other variable, no memory cell outside the slots of variables and no
other port.

`Assigns` is the case of a variable, which touches no port. The other cases are one write each
(`updates_setReg`, `updates_setMem`, `updates_setPort`). What a statement does before its write leaves
every variable its value, and belongs to the update (`Updates.of_keeps`).
-/

namespace ByteBasic.Storage

/-- A change that gives one variable a new value. -/
structure Assigns (id : VarId) (byte : UInt8) (before : Storage) (core : Core) (after : Storage)
    (core' : Core) : Prop where
  coherent : after.Coherent core'
  value : after.value core' id = byte
  others : ∀ j < before.vars.length, j ≠ id → after.value core' j = before.value core j
  memory : ∀ a, (∀ j < before.vars.length, (before.get j).address ≠ a) → core'.mem a = core.mem a
  rest : core' = { core with registers := core'.registers, memory := core'.memory }

/-- A change that gives a destination of any kind a new value: a variable, a register, a memory cell or a
port. -/
structure Updates (dest : Referent) (byte : UInt8) (before : Storage) (core : Core) (after : Storage)
    (core' : Core) : Prop where
  coherent : after.Coherent core'
  value : dest.value after core' = byte
  others : ∀ id < before.vars.length, dest ≠ .variable id →
    after.value core' id = before.value core id
  memory : ∀ a, (∀ id < before.vars.length, (before.get id).address ≠ a) → dest ≠ .memory a →
    core'.mem a = core.mem a
  ports : ∀ a, dest ≠ .port a → core'.port a = core.port a
  rest : core' = { core with
    registers := core'.registers, memory := core'.memory, ports := core'.ports }

variable {before middle after : Storage} {core core' core'' : Core} {id : VarId} {byte : UInt8}
variable {written : List Register} {register : Register} {dest : Referent}

theorem Writes.assigns (h : Writes id register byte before core after core') :
    Assigns id byte before core after core' :=
  ⟨h.coherent, h.value, h.others, h.memory, h.rest⟩

theorem Assigns.updates (h : Assigns id byte before core after core') :
    Updates (.variable id) byte before core after core' where
  coherent := h.coherent
  value := h.value
  others j hj hne := h.others j hj fun heq => hne (congrArg Referent.variable heq.symm)
  memory a ha _ := h.memory a ha
  ports a _ := by
    show core'.ports.read a.toNat = core.ports.read a.toNat
    rw [h.rest]
  rest := by rw [h.rest]

/-- What gives a variable a new value leaves the ports as they were. -/
theorem Updates.assigns (h : Updates (.variable id) byte before core after core') :
    Assigns id byte before core after core' where
  coherent := h.coherent
  value := h.value
  others j hj hne := h.others j hj fun heq => hne (Referent.variable.inj heq).symm
  memory a ha := h.memory a ha (by simp)
  rest := by
    have hports : core'.ports = core.ports := by
      refine Bank.ext_read fun a ha => ?_
      have hport : core'.port (UInt8.ofNat a) = core.port (UInt8.ofNat a) := h.ports _ (by simp)
      rwa [Core.port, Core.port, UInt8.toNat_ofNat_of_lt' ha] at hport
    have hrest := h.rest
    rwa [hports] at hrest

/-- What happens before an update and leaves every variable its value belongs to the update. -/
theorem Updates.of_keeps (hk : Keeps written before core middle core')
    (hu : Updates dest byte middle core' after core'') :
    Updates dest byte before core after core'' where
  coherent := hu.coherent
  value := hu.value
  others j hj hne := by
    rw [hu.others j (by rw [hk.same.length_eq]; exact hj) hne, hk.value j hj]
  memory a ha hne := by
    rw [hu.memory a _ hne, hk.memory a ha]
    intro j hj
    rw [hk.same.length_eq] at hj
    rw [hk.same.address_eq]
    exact ha j hj
  ports a hne := by
    rw [hu.ports a hne, Core.port, hk.rest]
    rfl
  rest := by
    rw [hu.rest, hk.rest]

theorem Updates.of_spares {used : List Register} (hs : Spares used before core middle core')
    (hu : Updates dest byte middle core' after core'') :
    Updates dest byte before core after core'' := by
  obtain ⟨_, hk, -⟩ := hs
  exact .of_keeps hk hu

/-- A part of the statement before a write belongs to the write. -/
theorem Assigns.of_spares {used : List Register} (hs : Spares used before core middle core')
    (hw : Assigns id byte middle core' after core'') : Assigns id byte before core after core'' :=
  (Updates.of_spares hs hw.updates).assigns

theorem updates_setReg (h : before.Coherent core)
    (hown : ∀ j, before.owner register ≠ some (.variable j)) (byte : UInt8) :
    Updates (.register register) byte before core before (core.setReg register.byte byte) := by
  have hk : Keeps [register] before core before (core.setReg register.byte byte) :=
    Keeps.setReg h hown byte (List.mem_singleton_self _)
  exact {
    coherent := hk.coherent
    value := core.reg_setReg_self register byte
    others := fun j hj _ => hk.value j hj
    memory := fun _ _ _ => rfl
    ports := fun _ _ => rfl
    rest := rfl }

theorem updates_setMem (h : before.Coherent core) {address : UInt8}
    (apart : (Referent.memory address).Apart before) (byte : UInt8) :
    Updates (.memory address) byte before core before (core.setMem address byte) := by
  have hslot : ∀ j < before.vars.length,
      (core.setMem address byte).mem (before.get j).address = core.mem (before.get j).address :=
    fun j hj => core.mem_setMem_of_ne (apart address rfl j hj).symm byte
  exact {
    coherent := ⟨h.agrees, h.distinct, fun j r hr hm => by
      rw [hslot j (lt_of_register hr), Core.reg_setMem]
      exact h.clean j r hr hm⟩
    value := core.mem_setMem_self address byte
    others := fun j hj _ => by
      unfold Storage.value
      rw [hslot j hj]
      rfl
    memory := fun a _ hne => core.mem_setMem_of_ne (fun heq => hne (congrArg _ heq)) byte
    ports := fun _ _ => rfl
    rest := rfl }

theorem updates_setPort (h : before.Coherent core) (address byte : UInt8) :
    Updates (.port address) byte before core before (core.setPort address byte) where
  coherent := ⟨h.agrees, h.distinct, h.clean⟩
  value := Bank.read_write_self core.ports address.toNat_lt byte
  others _ _ _ := rfl
  memory _ _ _ := rfl
  ports _ hne := Bank.read_write_of_ne core.ports
    (fun heq => hne (congrArg _ (UInt8.toNat_inj.1 heq))) byte
  rest := rfl

theorem tidy_modified {storage : Storage} (h : storage.Tidy) (id : VarId) :
    (storage.update id fun var => { var with modified := true }).Tidy := by
  refine h.of_same (.update storage id fun _ => rfl) (fun j r => ?_) h.zero
  have hregister : ((storage.update id fun var => { var with modified := true }).get j).register =
      (storage.get j).register := field_update Variable.register storage id j fun _ => rfl
  rw [hregister]
  exact h.agrees j r

end ByteBasic.Storage
