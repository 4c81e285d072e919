import ByteBasic.Proofs.Storage.Pinning

/-!
# What a statement asks of the storage

Each operation that the compiler uses is a part of a statement in the sense of `Serves`: it succeeds,
puts out calm code, pins what it says and spares the rest. The two exceptions are those that end a
statement (`unpinned_endStatement`) and that bind a variable which is about to be written
(`run_bind_unbound`): between the binding and the write, the register is not yet the variable's
value.
-/

namespace ByteBasic.Storage

variable {storage after : Storage} {register : Register} {id : VarId} {pins : List Register}

/-! ## Code of the storage -/

theorem fits_store (r : Register) (address : UInt8) :
    (Instruction.store r.byte address).Fits := by
  simp [Instruction.Fits, Instruction.nibbles]

theorem fits_loadMem (r : Register) (address : UInt8) :
    (Instruction.loadMem r.byte address).Fits := by
  simp [Instruction.Fits, Instruction.nibbles]

theorem mem_code_writeBack {i : Instruction} (h : i ∈ code (storage.writeBackCode id)) :
    ∃ r : Register, (storage.get id).register = some r ∧
      i = .store r.byte (storage.get id).address := by
  unfold writeBackCode at h
  split at h
  · next r hr _ =>
    exact ⟨r, hr, by simpa [code, StorageEvent.instruction?] using h⟩
  · simp at h

theorem fits_writeBack {i : Instruction} (h : i ∈ code (storage.writeBackCode id)) :
    i.Fits ∧ i.Steady := by
  obtain ⟨r, -, rfl⟩ := mem_code_writeBack h
  exact ⟨fits_store r _, trivial⟩

theorem calm_writeBack {i : Instruction} (h : i ∈ code (storage.writeBackCode id)) :
    Calm storage i := by
  obtain ⟨r, hr, rfl⟩ := mem_code_writeBack h
  exact ⟨id, lt_of_register hr, rfl⟩

def loadCode (storage : Storage) (id : VarId) (register : Register) : List StorageEvent :=
  storage.writeBackCode id ++ [.code (.loadMem register.byte (storage.get id).address)]

theorem fits_loadCode {i : Instruction} (h : i ∈ code (storage.loadCode id register)) :
    i.Fits ∧ i.Steady := by
  rw [loadCode, code_append] at h
  rcases List.mem_append.1 h with h | h
  · exact fits_writeBack h
  · rw [List.mem_singleton.1 h]
    exact ⟨fits_loadMem register _, trivial⟩

theorem calm_loadCode {i : Instruction} (h : i ∈ code (storage.loadCode id register)) :
    Calm storage i := by
  rw [loadCode, code_append] at h
  rcases List.mem_append.1 h with h | h
  · exact calm_writeBack h
  · rw [List.mem_singleton.1 h]
    trivial

/-! ## Giving up and holding -/

theorem serves_released (h : storage.Tidy) (hr : (storage.get id).register = some register)
    (hpin : ¬ storage.Pinned register) :
    Serves True [] storage (code (storage.writeBackCode id)) (storage.released id register) where
  tidy := by
    have hk : Keeps [] storage Core.initial _ (Core.initial.executeAll .singleBit _) :=
      keeps_released h.coherent hr
    refine h.of_same hk.same hk.coherent.agrees fun j => ?_
    by_cases hz : register = 0
    · subst hz
      rw [owner_released_self]
      simp
    · rw [owner_released_of_ne hz]
      exact h.zero j
  same :=
    have hk : Keeps [] storage Core.initial _ (Core.initial.executeAll .singleBit _) :=
      keeps_released h.coherent hr
    hk.same
  held r hp := by
    have hne : r ≠ register := by
      rintro rfl
      exact hpin hp
    exact ⟨(pinned_released h.agrees hr r).2 ⟨hne, hp⟩, owner_released_of_ne (Ne.symm hne)⟩
  pins r hp := .inl ((pinned_released h.agrees hr r).1 hp).2
  fits _ hi := fits_writeBack hi
  calm _ _ hi := calm_writeBack hi
  spares _ _ hc := .of_keeps (keeps_released hc hr)

theorem serves_hold (h : storage.Tidy) (free : ∀ j, storage.owner register ≠ some (.variable j)) :
    Serves True [register] storage [] (storage.setOwner register (some .temporary)) where
  tidy := by
    have hk : Keeps [] storage Core.initial (storage.setOwner register (some .temporary))
        Core.initial := Keeps.setOwner h.coherent free fun j => by simp
    refine h.of_same hk.same hk.coherent.agrees fun j => ?_
    by_cases hz : register = 0
    · subst hz
      simp
    · rw [owner_setOwner_of_ne _ hz]
      exact h.zero j
  same := rfl
  held r hp := by
    refine ⟨(pinned_hold storage register r).2 (.inr hp), ?_⟩
    by_cases hr : register = r
    · subst hr
      rcases hp with ht | ⟨j, hj, -⟩
      · rw [owner_setOwner_self, ht]
      · exact absurd hj (free j)
    · exact owner_setOwner_of_ne _ hr _
  pins r hp := by
    rcases (pinned_hold storage register r).1 hp with rfl | hp
    · exact .inr (List.mem_singleton_self _)
    · exact .inl hp
  fits i hi := by cases hi
  calm _ i hi := by cases hi
  spares _ _ hc := .of_keeps (Keeps.setOwner hc free fun j => by simp)

/-! ## Finding registers -/

/-- Fewer than fifteen registers leave one besides `r0`. -/
theorem exists_unpinned (room : pins.length < 15) :
    ∃ r : Register, 1 ≤ r.val ∧ r ∉ pins := by
  apply Classical.byContradiction
  intro hnone
  have hall : registersFrom 1 ⊆ pins := by
    intro r hr
    apply Classical.byContradiction
    intro hmem
    exact hnone ⟨r, mem_registersFrom.1 hr, hmem⟩
  have hnodup : (registersFrom 1).Nodup := (List.nodup_finRange 16).filter _
  have hlength : (registersFrom 1).length = 15 := by decide
  have := hnodup.length_le_of_subset hall
  omega

/-- As long as there is room, a register can be had. -/
theorem pick_serves (h : storage.Tidy) (hpins : Pins pins storage) (room : pins.length < 15) :
    ∃ register after events, (pick 1).run storage = ⟨.ok register, after, events⟩ ∧
      Serves True [] storage (code events) after ∧ 1 ≤ register.val ∧
      after.owner register = none ∧ ¬ storage.Pinned register ∧
      ∀ j, (storage.get j).register = none → (after.get j).register = none := by
  have hpicked := picked h.agrees 1
  generalize hout : (pick 1).run storage = outcome at hpicked ⊢
  cases hpicked with
  | free r hstart hfree =>
    exact ⟨r, storage, [], rfl, .refl h, hstart, hfree, not_pinned_of_free hfree, fun _ hj => hj⟩
  | evicted r id note hstart howner hclear =>
    have hr := (h.agrees id r).2 howner
    have hpin := not_pinned_of_clearable howner hclear
    refine ⟨r, storage.released id r, _, rfl, serves_released h hr hpin, hstart,
      owner_released_self storage id r, hpin, fun j hj => ?_⟩
    by_cases hij : j = id
    · subst hij
      rw [get_released_self hr]
    · rw [get_released_of_ne hij]
      exact hj
  | exhausted hheld =>
    -- Every register besides `r0` would be pinned, which is more than there can be.
    obtain ⟨r, hr, hmem⟩ := exists_unpinned room
    obtain ⟨howned, hkept⟩ := hheld r hr
    exact absurd (hpins r (pinned_of_kept howned hkept)) hmem

/-- As long as there is room, a register can be had for a value of the statement. -/
theorem scratch_serves (h : storage.Tidy) (hpins : Pins pins storage) (room : pins.length < 15) :
    ∃ register after events, scratch.run storage = ⟨.ok register, after, events⟩ ∧
      Serves True [register] storage (code events) after ∧ 1 ≤ register.val ∧
      after.owner register = some .temporary ∧ ¬ storage.Pinned register := by
  obtain ⟨register, picked, events, hrun, hserves, hstart, hfree, hpin, -⟩ :=
    pick_serves h hpins room
  have hhold := hserves.trans (serves_hold hserves.tidy fun j => by rw [hfree]; simp)
  refine ⟨register, picked.setOwner register (some .temporary), events, ?_, ?_, hstart,
    owner_setOwner_self _ register _, hpin⟩
  · simp only [scratch, Action.run_bind, hrun, Outcome.andThen_ok, run_hold, Action.run_pure,
      List.append_nil]
  · rw [List.append_nil] at hhold
    exact hhold.weaken (fun _ => ⟨trivial, trivial⟩) fun _ hr => hr

/-- A register that the source names is held, if no pinned variable is in it. No register changes its
value. -/
theorem reserve_serves (h : storage.Tidy)
    (loose : ∀ j, storage.owner register = some (.variable j) →
      (storage.get j).clearable = true) :
    ∃ after events, (reserve register).run storage = ⟨.ok (), after, events⟩ ∧
      Serves True [register] storage (code events) after ∧
      after.owner register = some .temporary ∧
      ∀ mode core, storage.Coherent core → ∀ r : Register,
        (core.executeAll mode (code events)).reg r.byte = core.reg r.byte := by
  by_cases hvar : ∃ j, storage.owner register = some (.variable j)
  · obtain ⟨j, howner⟩ := hvar
    have hr := (h.agrees j register).2 howner
    have hrel := serves_released h hr (not_pinned_of_clearable howner (loose j howner))
    have hhold := hrel.trans (serves_hold hrel.tidy fun k => by
      rw [owner_released_self storage j register]
      simp)
    rw [List.append_nil] at hhold
    exact ⟨_, _, run_reserve_variable h.agrees howner,
      hhold.weaken (fun _ => ⟨trivial, trivial⟩) fun _ hr => hr, owner_setOwner_self _ register _,
      fun mode core hc r => (hrel.spares mode core hc).reg (.inl (by simp))⟩
  · have hother : ∀ j, storage.owner register ≠ some (.variable j) :=
      fun j ho => hvar ⟨j, ho⟩
    exact ⟨_, _, run_reserve_other hother, serves_hold h hother, owner_setOwner_self _ register _,
      fun _ _ _ _ => rfl⟩

/-! ## Loading and binding -/

theorem run_bind_unbound (hr : (storage.get id).register = none)
    (free : storage.owner register = none) :
    (Storage.bind id register true).run storage = ⟨.ok (), storage.bound id register, []⟩ := by
  have hvacated : storage.vacated id = storage := by simp [vacated, hr]
  rw [run_bind_free (by rw [hr]; simp) free, hvacated, writeBackCode_unbound hr]

theorem owner_bound_of_ne {r : Register} (hne : register ≠ r) :
    (storage.bound id register).owner r = storage.owner r := by
  unfold bound
  rw [owner_setOwner_of_ne _ hne, owner_update]

theorem tidy_bound (h : storage.Tidy) (hid : id < storage.vars.length)
    (hr : (storage.get id).register = none) (free : storage.owner register = none)
    (hstart : 1 ≤ register.val) : (storage.bound id register).Tidy := by
  have hgrant := grants_setOwner h.agrees hid hr fun j => by rw [free]; simp
  refine h.of_same hgrant.same hgrant.agrees fun j => ?_
  have hne : register ≠ 0 := by
    rintro rfl
    simp at hstart
  rw [owner_bound_of_ne hne]
  exact h.zero j

/-- A pinned register stays as it is when another register is given to a variable. -/
theorem held_bound (h : storage.Tidy) (hid : id < storage.vars.length)
    (hr : (storage.get id).register = none) (free : storage.owner register = none)
    {r : Register} (hp : storage.Pinned r) :
    (storage.bound id register).Pinned r ∧ (storage.bound id register).owner r = storage.owner r := by
  have hne : register ≠ r := by
    rintro rfl
    exact not_pinned_of_free free hp
  exact ⟨(pinned_bound hid h.agrees hr r).2 (.inr hp), owner_bound_of_ne hne⟩

/-- A variable without a register is loaded into a free one and stays there. -/
theorem load_serves (h : storage.Tidy) (hid : id < storage.vars.length)
    (hr : (storage.get id).register = none) (free : storage.owner register = none)
    (hstart : 1 ≤ register.val) :
    (load id register true).run storage =
        ⟨.ok (), storage.bound id register, storage.loadCode id register⟩ ∧
      Serves True [register] storage (code (storage.loadCode id register))
        (storage.bound id register) ∧
      ∀ mode core, storage.Coherent core →
        (core.executeAll mode (code (storage.loadCode id register))).reg register.byte =
          storage.value core id := by
  have hvacated : storage.vacated id = storage := by simp [vacated, hr]
  have hrun : (load id register true).run storage =
      ⟨.ok (), storage.bound id register, storage.loadCode id register⟩ := by
    rw [run_load_keep (by rw [hr]; simp) free, hvacated]
    rfl
  have hloaded : ∀ mode core, storage.Coherent core → Keeps [register] storage core
      (storage.bound id register) (core.executeAll mode (code (storage.loadCode id register))) := by
    intro mode core hc
    have hk : Harmless mode [register] storage core ((load id register true).run storage) :=
      harmless_load hc hid register true
    rw [hrun] at hk
    exact hk
  refine ⟨hrun, ?_, fun mode core hc => ?_⟩
  · exact {
      tidy := tidy_bound h hid hr free hstart
      same := (hloaded .singleBit _ h.coherent).same
      held := fun r hp => held_bound h hid hr free hp
      pins := fun r hp => by
        rcases (pinned_bound hid h.agrees hr r).1 hp with rfl | hp
        · exact .inr (List.mem_singleton_self _)
        · exact .inl hp
      fits := fun _ hi => fits_loadCode hi
      calm := fun _ _ hi => calm_loadCode hi
      spares := fun mode core hc =>
        ⟨[register], hloaded mode core hc, fun r hmem => ⟨hmem, by
          rw [List.mem_singleton.1 hmem]
          exact not_pinned_of_free free⟩⟩ }
  · -- A load puts the value into its target, whether the slot had it before or not.
    have hvalue : (core.executeAll mode _).reg register.byte = _ :=
      reg_load hc hid (show _ = Except.ok () by rw [hrun])
    rw [hrun] at hvalue
    exact hvalue

theorem copy_serves (h : storage.Tidy) (hid : id < storage.vars.length)
    (free : storage.owner register = none) :
    (load id register false).run storage =
        ⟨.ok (), storage.saved id, storage.loadCode id register⟩ ∧
      Serves True [register] storage (code (storage.loadCode id register)) (storage.saved id) ∧
      ∀ mode core, storage.Coherent core →
        (core.executeAll mode (code (storage.loadCode id register))).reg register.byte =
          storage.value core id := by
  have hne : (storage.get id).register ≠ some register :=
    h.agrees.register_ne (fun j => by rw [free]; simp) id
  have hrun : (load id register false).run storage =
      ⟨.ok (), storage.saved id, storage.loadCode id register⟩ := run_load_copy hne free
  have hcopied : ∀ mode core, storage.Coherent core → Keeps [register] storage core
      (storage.saved id) (core.executeAll mode (code (storage.loadCode id register))) := by
    intro mode core hc
    have hk : Harmless mode [register] storage core ((load id register false).run storage) :=
      harmless_load hc hid register false
    rw [hrun] at hk
    exact hk
  have hinitial := hcopied .singleBit _ h.coherent
  refine ⟨hrun, ?_, fun mode core hc => ?_⟩
  · exact {
      tidy := h.of_same hinitial.same hinitial.coherent.agrees fun j => by
        rw [owner_saved]
        exact h.zero j
      same := hinitial.same
      held := fun r hp => ⟨(pinned_saved storage id r).2 hp, owner_saved storage id r⟩
      pins := fun r hp => .inl ((pinned_saved storage id r).1 hp)
      fits := fun _ hi => fits_loadCode hi
      calm := fun _ _ hi => calm_loadCode hi
      spares := fun mode core hc =>
        ⟨[register], hcopied mode core hc, fun r hmem => ⟨hmem, by
          rw [List.mem_singleton.1 hmem]
          exact not_pinned_of_free free⟩⟩ }
  · have hvalue : (core.executeAll mode _).reg register.byte = _ :=
      reg_load hc hid (show _ = Except.ok () by rw [hrun])
    rw [hrun] at hvalue
    exact hvalue

theorem serves_fixed (h : storage.Tidy) (hr : (storage.get id).register = some register) :
    Serves True [register] storage [] (storage.fixed id) where
  tidy := by
    have hk : Keeps [] storage Core.initial _ Core.initial := keeps_fixed h.coherent id
    exact h.of_same hk.same hk.coherent.agrees h.zero
  same := .update storage id fun _ => rfl
  held r hp := ⟨(pinned_fixed h.agrees hr r).2 (.inr hp), rfl⟩
  pins r hp := by
    rcases (pinned_fixed h.agrees hr r).1 hp with rfl | hp
    · exact .inr (List.mem_singleton_self _)
    · exact .inl hp
  fits i hi := by cases hi
  calm _ i hi := by cases hi
  spares _ _ hc := .of_keeps (keeps_fixed hc id)

/-! ## Between statements -/

/-- No register is pinned, as between statements. -/
def Unpinned (storage : Storage) : Prop :=
  ∀ r, ¬ storage.Pinned r

/-- Nothing is held in a register, as where control comes from elsewhere. -/
def Vacant (storage : Storage) : Prop :=
  ∀ r, storage.owner r = none

theorem Unpinned.toPins (h : storage.Unpinned) : Pins [] storage :=
  fun r hp => absurd hp (h r)

theorem Unpinned.clearable (h : storage.Unpinned) (howner : storage.owner register =
    some (.variable id)) : (storage.get id).clearable = true := by
  cases hc : (storage.get id).clearable with
  | true => rfl
  | false => exact absurd (.inr ⟨id, howner, hc⟩) (h register)

theorem Vacant.unbound (h : storage.Vacant) (ha : storage.Agrees) (id : VarId) :
    (storage.get id).register = none := by
  cases hr : (storage.get id).register with
  | none => rfl
  | some r =>
    have howner := (ha id r).1 hr
    rw [h r] at howner
    cases howner

/-- One register is given up; those that were free stay so. -/
theorem flushAt_serves (h : storage.Tidy) (unpinned : storage.Unpinned) (register : Register) :
    ∃ after events, (flushAt register).run storage = ⟨.ok (), after, events⟩ ∧
      Serves True [] storage (code events) after ∧ after.owner register = none ∧
      ∀ r, storage.owner r = none → after.owner r = none := by
  rcases howner : storage.owner register with _ | ⟨id⟩ | _
  · exact ⟨_, _, run_flushAt_free howner, .refl h, howner, fun _ hr => hr⟩
  · refine ⟨_, _, run_flushAt_variable h.agrees howner,
      serves_released h ((h.agrees id register).2 howner) (unpinned register),
      owner_released_self storage id register, fun r hr => ?_⟩
    by_cases heq : register = r
    · subst heq
      exact owner_released_self storage id register
    · rw [owner_released_of_ne heq]
      exact hr
  · exact absurd (.inl howner) (unpinned register)

theorem flushAll_serves (h : storage.Tidy) (unpinned : storage.Unpinned)
    (registers : List Register) :
    ∃ after events, (registers.forM flushAt).run storage = ⟨.ok (), after, events⟩ ∧
      Serves True [] storage (code events) after ∧
      ∀ r, r ∈ registers ∨ storage.owner r = none → after.owner r = none := by
  induction registers generalizing storage with
  | nil => exact ⟨storage, [], rfl, .refl h, fun r hr => hr.resolve_left (by simp)⟩
  | cons register rest ih =>
    obtain ⟨mid, events, hrun, hserves, hfree, hstay⟩ := flushAt_serves h unpinned register
    have hmid : mid.Unpinned := fun r hp => (hserves.pins r hp).elim (unpinned r) (by simp)
    obtain ⟨after, later, hrest, hserves', hall⟩ := ih hserves.tidy hmid
    refine ⟨after, events ++ later, ?_, ?_, fun r hr => ?_⟩
    · rw [run_forM_cons, hrun, Outcome.andThen_ok, hrest]
    · rw [code_append]
      exact (hserves.trans hserves').weaken (fun _ => ⟨trivial, trivial⟩) fun _ hr => hr
    · rcases hr with hr | hr
      · rcases List.mem_cons.1 hr with rfl | hr
        · exact hall r (.inr hfree)
        · exact hall r (.inl hr)
      · exact hall r (.inr (hstay r hr))

/-- All registers are given up. -/
theorem flush_serves (h : storage.Tidy) (unpinned : storage.Unpinned) :
    ∃ after events, flush.run storage = ⟨.ok (), after, events⟩ ∧
      Serves True [] storage (code events) after ∧ after.Vacant := by
  obtain ⟨after, events, hrun, hserves, hall⟩ := flushAll_serves h unpinned (List.finRange 16)
  exact ⟨after, events, hrun, hserves, fun r => hall r (.inl (List.mem_finRange r))⟩

/-- Ending a statement at one register unpins it and pins no other. -/
theorem pinned_endStatementAt (h : storage.Tidy) {r : Register}
    (hp : (endStatementAt register storage).Pinned r) : storage.Pinned r ∧ r ≠ register := by
  unfold endStatementAt at hp
  rcases howner : storage.owner register with _ | ⟨id⟩ | _
  · rw [howner] at hp
    refine ⟨hp, ?_⟩
    rintro rfl
    exact not_pinned_of_free howner hp
  · rw [howner] at hp
    simp only at hp
    have hid := lt_of_register ((h.agrees id register).2 howner)
    -- A variable may lose its register from now on, and only this one.
    have hclear : ((storage.update id fun var => { var with clearable := true }).get id).clearable =
        true := by rw [get_update_self storage hid]
    rcases hp with ht | ⟨j, hj, hc⟩
    · refine ⟨.inl ht, ?_⟩
      rintro rfl
      rw [owner_update, howner] at ht
      cases ht
    · have hij : id ≠ j := by
        rintro rfl
        rw [hclear] at hc
        cases hc
      rw [get_update_of_ne storage hij] at hc
      refine ⟨.inr ⟨j, hj, hc⟩, ?_⟩
      rintro rfl
      rw [owner_update, howner] at hj
      exact hij (by simpa using hj)
  · rw [howner] at hp
    simp only at hp
    have hne : r ≠ register := by
      rintro rfl
      exact not_pinned_of_free (owner_setOwner_self storage r none) hp
    refine ⟨?_, hne⟩
    simpa only [Pinned, owner_setOwner_of_ne storage (Ne.symm hne), get_setOwner] using hp

theorem tidy_endStatementAt (h : storage.Tidy) (register : Register) :
    (endStatementAt register storage).Tidy := by
  have hk : Keeps [] storage Core.initial _ Core.initial := keeps_endStatementAt h.coherent register
  refine h.of_same hk.same hk.coherent.agrees fun j => ?_
  unfold endStatementAt
  split
  · by_cases hz : register = 0
    · subst hz
      simp
    · rw [owner_setOwner_of_ne _ hz]
      exact h.zero j
  · exact h.zero j
  · exact h.zero j

theorem unpinned_endStatementAll (h : storage.Tidy) (registers : List Register) :
    (registers.foldl (fun storage register => endStatementAt register storage) storage).Tidy ∧
      ∀ r, (registers.foldl (fun storage register => endStatementAt register storage)
        storage).Pinned r → storage.Pinned r ∧ r ∉ registers := by
  induction registers generalizing storage with
  | nil => exact ⟨h, fun r hp => ⟨hp, by simp⟩⟩
  | cons register rest ih =>
    obtain ⟨htidy, hpins⟩ := ih (tidy_endStatementAt h register)
    refine ⟨htidy, fun r hp => ?_⟩
    obtain ⟨hp', hrest⟩ := hpins r hp
    obtain ⟨hbefore, hne⟩ := pinned_endStatementAt h hp'
    exact ⟨hbefore, by simp [hne, hrest]⟩

theorem keeps_endStatement {core : Core} (h : storage.Coherent core) :
    Keeps [] storage core (endStatement.run storage).state core := by
  unfold endStatement
  rw [Action.run_modify]
  generalize List.finRange 16 = registers
  exact keeps_endStatementAll h registers

theorem same_endStatement (h : storage.Tidy) : SameVars storage (endStatement.run storage).state :=
  (keeps_endStatement h.coherent).same

/-- The end of a statement only lets variables lose their registers. -/
theorem field_endStatement {α : Type} (field : Variable → α)
    (h : ∀ var, field { var with clearable := true } = field var) (storage : Storage) (id : VarId) :
    field ((endStatement.run storage).state.get id) = field (storage.get id) := by
  unfold endStatement
  rw [Action.run_modify]
  generalize List.finRange 16 = registers
  induction registers generalizing storage with
  | nil => rfl
  | cons register rest ih =>
    refine (ih _).trans ?_
    simp only [endStatementAt]
    split
    · rfl
    · exact field_update field storage _ id h
    · rfl

theorem register_endStatement (storage : Storage) (id : VarId) :
    ((endStatement.run storage).state.get id).register = (storage.get id).register :=
  field_endStatement Variable.register (fun _ => rfl) storage id

/-- The end of a statement leaves nothing pinned. -/
theorem unpinned_endStatement (h : storage.Tidy) :
    (endStatement.run storage).state.Tidy ∧ (endStatement.run storage).state.Unpinned := by
  obtain ⟨htidy, hpins⟩ := unpinned_endStatementAll h (List.finRange 16)
  have hall : ∀ r : Register, r ∈ List.finRange 16 := List.mem_finRange
  unfold endStatement
  rw [Action.run_modify]
  generalize List.finRange 16 = registers at htidy hpins hall ⊢
  exact ⟨htidy, fun r hp => (hpins r hp).2 (hall r)⟩

/-- Where a register is not pinned there is nothing left to give up. -/
theorem endStatementAt_of_not_pinned (h : ¬ storage.Pinned register) :
    endStatementAt register storage = storage := by
  unfold endStatementAt
  rcases howner : storage.owner register with _ | ⟨id⟩ | _
  · rfl
  · have hclear : (storage.get id).clearable = true := by
      rw [← Bool.not_eq_false]
      exact fun hc => h (.inr ⟨id, howner, hc⟩)
    exact update_eq_self (by rw [← hclear])
  · exact absurd (.inl howner) h

/-- Between two statements the end of a statement changes nothing. -/
theorem endStatement_of_unpinned (h : storage.Unpinned) :
    (endStatement.run storage).state = storage := by
  unfold endStatement
  rw [Action.run_modify]
  generalize List.finRange 16 = registers
  induction registers with
  | nil => rfl
  | cons register rest ih =>
    rw [List.foldl_cons, endStatementAt_of_not_pinned (h register)]
    exact ih

end ByteBasic.Storage
