import ByteBasic.Proofs.Code.Stepping
import ByteBasic.Proofs.Storage.WriteBack

/-!
# Registers kept for a statement

While a statement is compiled, some registers are spoken for: those of its values, and those of
variables that may not be evicted. They are `Pinned`. Whatever else the statement asks of the
storage leaves pinned registers alone, both in the tables and in the code that is put out, so a value
put into a pinned register is still there when it is needed. `Serves` says this of a part of a
statement, with the registers that it uses, and composes (`Serves.trans`).

A statement pins a few registers at most. As long as fewer than fifteen are pinned, a register can
be had (`pick_serves`).
-/

namespace ByteBasic.Storage

/-! ## Tidy storages -/

/-- The storage as the compiler keeps it: the tables agree, slots count down from the top of memory,
and `r0` is no variable's register. -/
structure Tidy (storage : Storage) : Prop where
  agrees : storage.Agrees
  length_le : storage.vars.length ≤ 255
  address : ∀ id < storage.vars.length, (storage.get id).address = UInt8.ofNat (255 - id)
  zero : ∀ id, storage.owner 0 ≠ some (.variable id)

variable {storage before middle after : Storage} {register : Register} {id : VarId}

theorem tidy_empty : empty.Tidy where
  agrees id r := by simp [empty, get, owner, Variable.new]
  length_le := by simp [empty]
  address id h := by simp [empty] at h
  zero id := by simp [empty, owner]

namespace Tidy

theorem distinct (h : storage.Tidy) : storage.Distinct :=
  distinct_of_address h.length_le h.address

theorem coherent (h : storage.Tidy) : storage.Coherent Core.initial :=
  coherent_initial h.agrees h.distinct

theorem of_same (h : before.Tidy) (same : SameVars before after) (agrees : after.Agrees)
    (zero : ∀ id, after.owner 0 ≠ some (.variable id)) : after.Tidy where
  agrees := agrees
  length_le := by
    rw [same.length_eq]
    exact h.length_le
  address id hid := by
    rw [same.address_eq]
    exact h.address id (by rwa [same.length_eq] at hid)
  zero := zero

end Tidy

/-! ## Pinned registers -/

/-- A register is kept for the statement: by a value, or by a variable that may not lose it. -/
def Pinned (storage : Storage) (register : Register) : Prop :=
  storage.owner register = some .temporary ∨
    ∃ id, storage.owner register = some (.variable id) ∧ (storage.get id).clearable = false

/-- All pinned registers are among the given ones. -/
def Pins (pins : List Register) (storage : Storage) : Prop :=
  ∀ register, storage.Pinned register → register ∈ pins

theorem not_pinned_of_free (h : storage.owner register = none) : ¬ storage.Pinned register := by
  rintro (ht | ⟨id, hv, -⟩)
  · rw [h] at ht
    cases ht
  · rw [h] at hv
    cases hv

theorem not_pinned_of_clearable (h : storage.owner register = some (.variable id))
    (hc : (storage.get id).clearable = true) : ¬ storage.Pinned register := by
  rintro (ht | ⟨j, hv, hj⟩)
  · rw [h] at ht
    cases ht
  · rw [h] at hv
    obtain rfl : id = j := by simpa using hv
    rw [hc] at hj
    cases hj

/-- A register is pinned if it is held and no variable can be evicted from it. -/
theorem pinned_of_kept (howned : storage.owner register ≠ none)
    (hkept : storage.evictable? register = none) : storage.Pinned register := by
  rcases howner : storage.owner register with _ | ⟨id⟩ | _
  · exact absurd howner howned
  · refine .inr ⟨id, howner, ?_⟩
    simpa [evictable?, howner] using hkept
  · exact .inl howner

/-- A variable that gives up its register unpins that register and no other. -/
theorem pinned_released (ha : storage.Agrees) (hr : (storage.get id).register = some register)
    (r : Register) :
    (storage.released id register).Pinned r ↔ r ≠ register ∧ storage.Pinned r := by
  by_cases heq : r = register
  · subst heq
    have := not_pinned_of_free (owner_released_self storage id r)
    simp [this]
  · have howner : (storage.released id register).owner r = storage.owner r :=
      owner_released_of_ne (Ne.symm heq)
    have hget : ∀ j, storage.owner r = some (.variable j) →
        (storage.released id register).get j = storage.get j := by
      intro j hj
      apply get_released_of_ne
      rintro rfl
      have := (ha j r).2 hj
      rw [hr] at this
      exact heq (Option.some.inj this).symm
    unfold Pinned
    rw [howner]
    refine ⟨fun h => ⟨heq, h.imp_right ?_⟩, fun h => h.2.imp_right ?_⟩
    · rintro ⟨j, hj, hc⟩
      exact ⟨j, hj, by rw [hget j hj] at hc; exact hc⟩
    · rintro ⟨j, hj, hc⟩
      exact ⟨j, hj, by rw [hget j hj]; exact hc⟩

/-- A change that leaves alone who owns what and who may be evicted changes no pin. -/
theorem pinned_congr (howner : ∀ r, after.owner r = before.owner r)
    (hclear : ∀ j, (after.get j).clearable = (before.get j).clearable) (r : Register) :
    after.Pinned r ↔ before.Pinned r := by
  simp only [Pinned, howner, hclear]

theorem pinned_saved (storage : Storage) (id : VarId) (r : Register) :
    (storage.saved id).Pinned r ↔ storage.Pinned r := by
  refine pinned_congr (fun r => owner_saved storage id r) (fun j => ?_) r
  unfold saved
  split
  · rfl
  · exact field_update Variable.clearable storage id j fun _ => rfl

theorem pinned_hold (storage : Storage) (register r : Register) :
    (storage.setOwner register (some .temporary)).Pinned r ↔ r = register ∨ storage.Pinned r := by
  by_cases heq : r = register
  · subst heq
    simp [Pinned]
  · simp only [Pinned, owner_setOwner_of_ne storage (Ne.symm heq), get_setOwner, heq, false_or]

/-- A variable that gets a free register pins it. -/
theorem pinned_bound (hid : id < storage.vars.length) (ha : storage.Agrees)
    (hr : (storage.get id).register = none) (r : Register) :
    (storage.bound id register).Pinned r ↔ r = register ∨ storage.Pinned r := by
  by_cases heq : r = register
  · subst heq
    refine ⟨fun _ => .inl rfl, fun _ => .inr ⟨id, ?_, ?_⟩⟩
    · exact owner_setOwner_self _ r _
    · unfold bound
      rw [get_setOwner, get_update_self storage hid]
  · have howner : (storage.bound id register).owner r = storage.owner r := by
      unfold bound
      rw [owner_setOwner_of_ne _ (Ne.symm heq), owner_update]
    have hget : ∀ j, storage.owner r = some (.variable j) →
        (storage.bound id register).get j = storage.get j := by
      intro j hj
      have hne : id ≠ j := by
        rintro rfl
        rw [(ha id r).2 hj] at hr
        cases hr
      unfold bound
      rw [get_setOwner, get_update_of_ne storage hne]
    simp only [Pinned, howner, heq, false_or]
    refine or_congr Iff.rfl ⟨?_, ?_⟩
    · rintro ⟨j, hj, hc⟩
      exact ⟨j, hj, by rw [hget j hj] at hc; exact hc⟩
    · rintro ⟨j, hj, hc⟩
      exact ⟨j, hj, by rw [hget j hj]; exact hc⟩

theorem pinned_fixed (ha : storage.Agrees) (hr : (storage.get id).register = some register)
    (r : Register) : (storage.fixed id).Pinned r ↔ r = register ∨ storage.Pinned r := by
  have hid := lt_of_register hr
  have hself : ((storage.fixed id).get id).clearable = false := by
    unfold fixed
    rw [get_update_self storage hid]
  have hother : ∀ j, id ≠ j → (storage.fixed id).get j = storage.get j :=
    fun j hj => get_update_of_ne storage hj _
  constructor
  · rintro (ht | ⟨j, hj, hc⟩)
    · exact .inr (.inl ht)
    · by_cases hij : id = j
      · subst hij
        rw [owner_fixed, ← ha id r, hr] at hj
        exact .inl (Option.some.inj hj).symm
      · rw [hother j hij] at hc
        exact .inr (.inr ⟨j, hj, hc⟩)
  · rintro (rfl | ht | ⟨j, hj, hc⟩)
    · exact .inr ⟨id, (ha id r).1 hr, hself⟩
    · exact .inl ht
    · refine .inr ⟨j, hj, ?_⟩
      by_cases hij : id = j
      · subst hij
        exact hself
      · rw [hother j hij]
        exact hc

/-! ## Parts of a statement -/

/-- Instructions that only compute in registers, read memory and write the slots of variables. -/
def Calm (storage : Storage) : Instruction → Prop
  | .noOp => True
  | .load _ _ => True
  | .loadMem _ _ => True
  | .alu _ _ _ _ => True
  | .rotate _ _ => True
  | .move (.general _) (.general _) => True
  | .store _ address => ∃ id < storage.vars.length, (storage.get id).address = address
  | _ => False

theorem Calm.of_same {i : Instruction} (h : Calm after i) (same : SameVars before after) :
    Calm before i := by
  cases i with
  | store r address =>
    obtain ⟨id, hid, haddress⟩ := h
    exact ⟨id, by rwa [same.length_eq] at hid, by rwa [same.address_eq] at haddress⟩
  | move source dest => cases source <;> cases dest <;> exact h
  | _ => exact h

/-- A change that leaves every variable its value, and every register its content unless it is among
those used and was not pinned. -/
def Spares (used : List Register) (before : Storage) (core : Core) (after : Storage)
    (core' : Core) : Prop :=
  ∃ written, Keeps written before core after core' ∧
    ∀ r ∈ written, r ∈ used ∧ ¬ before.Pinned r

namespace Spares

variable {used used' : List Register} {core core' core'' : Core}

theorem of_keeps (h : Keeps [] before core after core') : Spares used before core after core' :=
  ⟨[], h, fun _ hr => by cases hr⟩

theorem coherent (h : Spares used before core after core') : after.Coherent core' := by
  obtain ⟨_, hk, -⟩ := h
  exact hk.coherent

theorem value (h : Spares used before core after core') (hid : id < before.vars.length) :
    after.value core' id = before.value core id := by
  obtain ⟨_, hk, -⟩ := h
  exact hk.value id hid

theorem memory (h : Spares used before core after core') {a : UInt8}
    (ha : ∀ id < before.vars.length, (before.get id).address ≠ a) : core'.mem a = core.mem a := by
  obtain ⟨_, hk, -⟩ := h
  exact hk.memory a ha

theorem rest (h : Spares used before core after core') :
    core' = { core with registers := core'.registers, memory := core'.memory } := by
  obtain ⟨_, hk, -⟩ := h
  exact hk.rest

theorem reg (h : Spares used before core after core')
    (hr : register ∉ used ∨ before.Pinned register) :
    core'.reg register.byte = core.reg register.byte := by
  obtain ⟨_, hk, hw⟩ := h
  refine hk.registers register fun hmem => ?_
  obtain ⟨hused, hpin⟩ := hw register hmem
  exact hr.elim (fun hr => hr hused) hpin

theorem mono (h : Spares used before core after core') (hsub : ∀ r ∈ used, r ∈ used') :
    Spares used' before core after core' := by
  obtain ⟨written, hk, hw⟩ := h
  exact ⟨written, hk, fun r hr => ⟨hsub r (hw r hr).1, (hw r hr).2⟩⟩

theorem trans (h₁ : Spares used before core middle core')
    (h₂ : Spares used' middle core' after core'') (held : ∀ r, before.Pinned r → middle.Pinned r) :
    Spares (used ++ used') before core after core'' := by
  obtain ⟨written₁, hk₁, hw₁⟩ := h₁
  obtain ⟨written₂, hk₂, hw₂⟩ := h₂
  refine ⟨written₁ ++ written₂, (hk₁.mono fun r hr => List.mem_append_left _ hr).trans
    (hk₂.mono fun r hr => List.mem_append_right _ hr), fun r hr => ?_⟩
  rcases List.mem_append.1 hr with hr | hr
  · exact ⟨List.mem_append_left _ (hw₁ r hr).1, (hw₁ r hr).2⟩
  · exact ⟨List.mem_append_right _ (hw₂ r hr).1, fun hp => (hw₂ r hr).2 (held r hp)⟩

end Spares

/-- A part of a statement: it puts out code, uses and may pin some registers, and spares all else. If
`calm`, its code is calm. -/
structure Serves (calm : Prop) (used : List Register) (before : Storage)
    (code : List Instruction) (after : Storage) : Prop where
  tidy : after.Tidy
  same : SameVars before after
  held : ∀ r, before.Pinned r → after.Pinned r ∧ after.owner r = before.owner r
  pins : ∀ r, after.Pinned r → before.Pinned r ∨ r ∈ used
  fits : ∀ i ∈ code, i.Fits ∧ i.Steady
  calm : calm → ∀ i ∈ code, Calm before i
  spares : ∀ mode core, before.Coherent core →
    Spares used before core after (core.executeAll mode code)

namespace Serves

variable {calm calm' : Prop} {used used' pins : List Register} {code code' : List Instruction}

theorem refl (h : storage.Tidy) : Serves calm [] storage [] storage where
  tidy := h
  same := .refl storage
  held r hr := ⟨hr, rfl⟩
  pins r hr := .inl hr
  fits i hi := by cases hi
  calm _ i hi := by cases hi
  spares _ _ hc := .of_keeps (.refl hc)

theorem trans (h₁ : Serves calm used before code middle)
    (h₂ : Serves calm' used' middle code' after) :
    Serves (calm ∧ calm') (used ++ used') before (code ++ code') after where
  tidy := h₂.tidy
  same := h₁.same.trans h₂.same
  held r hr := by
    obtain ⟨hp, ho⟩ := h₁.held r hr
    obtain ⟨hp', ho'⟩ := h₂.held r hp
    exact ⟨hp', ho'.trans ho⟩
  pins r hr := by
    rcases h₂.pins r hr with hr | hr
    · exact (h₁.pins r hr).imp_right (List.mem_append_left _)
    · exact .inr (List.mem_append_right _ hr)
  fits i hi := by
    rcases List.mem_append.1 hi with hi | hi
    · exact h₁.fits i hi
    · exact h₂.fits i hi
  calm hc i hi := by
    rcases List.mem_append.1 hi with hi | hi
    · exact h₁.calm hc.1 i hi
    · exact (h₂.calm hc.2 i hi).of_same h₁.same
  spares mode core hc := by
    rw [Core.executeAll_append]
    have hfirst := h₁.spares mode core hc
    exact hfirst.trans (h₂.spares mode _ hfirst.coherent) fun r hr => (h₁.held r hr).1

theorem weaken (h : Serves calm used before code after) (hcalm : calm' → calm)
    (hused : ∀ r ∈ used, r ∈ used') : Serves calm' used' before code after :=
  { h with
    pins := fun r hr => (h.pins r hr).imp_right (hused r)
    calm := fun hc => h.calm (hcalm hc)
    spares := fun mode core hc => (h.spares mode core hc).mono hused }

theorem pinsTo (h : Serves calm used before code after) (hpins : Pins pins before) :
    Pins (used ++ pins) after := by
  intro r hr
  rcases h.pins r hr with hr | hr
  · exact List.mem_append_right _ (hpins r hr)
  · exact List.mem_append_left _ hr

end Serves

end ByteBasic.Storage
