import ByteBasic.Proofs.Storage.Ownership

/-!
# Settled storages

A variable that is modified has a value that only its register holds. Such a storage is `Housed`: what
is modified is in a register, so that giving up all registers leaves nothing behind. A storage is
`Settled` when no register is a variable's and every slot is up to date; whatever is executed next
finds all variables in memory.

**Theorem (`moves_flush`).** Giving up all registers settles a housed storage, and every modified
variable is stored on the way.

`Moves` is what the operations have in common: they keep the storage housed and store to slots only.
-/

namespace ByteBasic.Storage

variable {storage before middle after : Storage} {id : VarId} {register : Register}

/-- An orderly storage in which only what is in a register is modified. -/
structure Housed (storage : Storage) : Prop where
  orderly : storage.Orderly
  modified : ∀ id, (storage.get id).modified = true → (storage.get id).register ≠ none

/-- No register is a variable's. -/
def Loose (storage : Storage) : Prop :=
  ∀ register id, storage.owner register ≠ some (.variable id)

/-- No register is a variable's, and every slot is up to date. -/
structure Settled (storage : Storage) : Prop where
  owners : ∀ register id, storage.owner register ≠ some (.variable id)
  slots : ∀ id, (storage.get id).modified = false

namespace Housed

theorem agrees (h : storage.Housed) : storage.Agrees :=
  h.orderly.agrees

theorem coherent (h : storage.Housed) : storage.Coherent Core.initial :=
  h.orderly.coherent

theorem unbound (h : storage.Housed) (loose : storage.Loose) (id : VarId) :
    (storage.get id).register = none := by
  cases hr : (storage.get id).register with
  | none => rfl
  | some register => exact absurd ((h.agrees id register).1 hr) (loose register id)

theorem settled (h : storage.Housed) (loose : storage.Loose) : storage.Settled where
  owners := loose
  slots id := by
    cases hm : (storage.get id).modified with
    | false => rfl
    | true => exact absurd (h.unbound loose id) (h.modified id hm)

theorem markModified (h : storage.Housed) (hid : (storage.get id).register ≠ none) :
    (storage.update id fun var => { var with modified := true }).Housed where
  orderly := h.orderly.of_same (.update storage id fun _ => rfl)
    (agrees_update h.agrees id fun _ => rfl)
  modified j hj := by
    have hregister : ((storage.update id fun var => { var with modified := true }).get j).register =
        (storage.get j).register := field_update Variable.register storage id j fun _ => rfl
    rw [hregister]
    by_cases hij : id = j
    · subst hij
      exact hid
    · rw [get_update_of_ne storage hij] at hj
      exact h.modified j hj

theorem extended {name : String} {scope : Scope} (h : storage.Housed)
    (hnew : storage.find? name scope = none) (room : storage.vars.length < 255) :
    (storage.extended name scope).Housed where
  orderly := h.orderly.extended hnew room
  modified j hj := by
    rw [register_extended]
    rcases Nat.lt_trichotomy j storage.vars.length with hlt | rfl | hgt
    · rw [get_extended_of_lt hlt] at hj
      exact h.modified j hj
    · rw [get_extended_self] at hj
      cases hj
    · rw [get_of_ge (by rw [length_extended]; exact hgt)] at hj
      cases hj

theorem endStatement (h : storage.Housed) : (endStatement.run storage).state.Housed where
  orderly :=
    have hk : Harmless .singleBit [] storage Core.initial _ := harmless_endStatement h.coherent
    h.orderly.of_same hk.same hk.coherent.agrees
  modified id hm := by
    rw [field_endStatement Variable.modified (fun _ => rfl)] at hm
    rw [register_endStatement]
    exact h.modified id hm

end Housed

theorem housed_empty : empty.Housed where
  orderly := orderly_empty
  modified id h := by
    rw [get_of_ge (Nat.zero_le id)] at h
    cases h

/-! ## Parts of operations -/

/-- What the operations on the storage have in common. -/
structure Moves (before : Storage) (code : List Instruction) (after : Storage) : Prop where
  same : SameVars before after
  housed : after.Housed
  slots : ∀ r address, Instruction.store r address ∈ code →
    ∃ id < before.vars.length, (before.get id).address = address

namespace Moves

variable {code later : List Instruction}

theorem refl (h : storage.Housed) : Moves storage [] storage :=
  ⟨.refl storage, h, fun _ _ hs => (by cases hs)⟩

theorem trans (h₁ : Moves before code middle) (h₂ : Moves middle later after) :
    Moves before (code ++ later) after where
  same := h₁.same.trans h₂.same
  housed := h₂.housed
  slots r address hs := by
    rcases List.mem_append.1 hs with hs | hs
    · exact h₁.slots r address hs
    · obtain ⟨id, hid, haddress⟩ := h₂.slots r address hs
      rw [h₁.same.length_eq] at hid
      rw [h₁.same.address_eq] at haddress
      exact ⟨id, hid, haddress⟩

/-- A change that keeps every value, and after which what is modified has a register. -/
theorem of_keeps {written : List Register} {core : Core} (h : before.Housed)
    (hk : Keeps written before Core.initial after core)
    (hmodified : ∀ id, (after.get id).modified = true → (after.get id).register ≠ none)
    (hslots : ∀ r address, Instruction.store r address ∈ code →
      ∃ id < before.vars.length, (before.get id).address = address) : Moves before code after where
  same := hk.same
  housed := ⟨h.orderly.of_same hk.same hk.coherent.agrees, hmodified⟩
  slots := hslots

end Moves

theorem slots_writeBack (r address : UInt8)
    (h : Instruction.store r address ∈ code (storage.writeBackCode id)) :
    ∃ id < storage.vars.length, (storage.get id).address = address := by
  obtain ⟨register, hr, heq⟩ := mem_code_writeBack h
  obtain ⟨rfl, rfl⟩ := Instruction.store.inj heq
  exact ⟨id, lt_of_register hr, rfl⟩

theorem moves_fixed (h : storage.Housed) (id : VarId) : Moves storage [] (storage.fixed id) := by
  have hk : Keeps [] storage Core.initial (storage.fixed id) Core.initial := keeps_fixed h.coherent id
  refine .of_keeps h hk (fun j hj => ?_) fun _ _ hs => (by cases hs)
  rw [register_fixed]
  rw [show ((storage.fixed id).get j).modified = (storage.get j).modified from
    field_update Variable.modified storage id j fun _ => rfl] at hj
  exact h.modified j hj

theorem moves_saved (h : storage.Housed) (id : VarId) :
    Moves storage (code (storage.writeBackCode id)) (storage.saved id) := by
  have hk : Keeps [] storage Core.initial _ (Core.initial.executeAll .singleBit _) :=
    keeps_saved h.coherent id
  refine .of_keeps h hk (fun j hj => ?_) slots_writeBack
  rw [register_saved]
  refine h.modified j ?_
  unfold saved at hj
  split at hj
  · exact hj
  · next hr =>
    by_cases hij : id = j
    · subst hij
      rw [get_update_self storage (lt_of_register hr)] at hj
      cases hj
    · rw [get_update_of_ne storage hij] at hj
      exact hj

theorem moves_released (h : storage.Housed) (hr : (storage.get id).register = some register) :
    Moves storage (code (storage.writeBackCode id)) (storage.released id register) := by
  have hk : Keeps [] storage Core.initial _ (Core.initial.executeAll .singleBit _) :=
    keeps_released h.coherent hr
  refine .of_keeps h hk (fun j hj => ?_) slots_writeBack
  by_cases hij : j = id
  · subst hij
    rw [get_released_self hr] at hj
    cases hj
  · rw [get_released_of_ne hij] at hj ⊢
    exact h.modified j hj

theorem moves_vacated (h : storage.Housed) (id : VarId) :
    Moves storage (code (storage.writeBackCode id)) (storage.vacated id) := by
  unfold vacated
  cases hr : (storage.get id).register with
  | none =>
    rw [writeBackCode_unbound hr]
    exact .refl h
  | some r => exact moves_released h hr

theorem moves_bound (h : storage.Housed) (hid : id < storage.vars.length)
    (free : storage.owner register = none) :
    Moves storage (code (storage.writeBackCode id)) ((storage.vacated id).bound id register) ∧
      (((storage.vacated id).bound id register).get id).register = some register := by
  have hvacated := moves_vacated h id
  have hgrants := grants_bound hvacated.housed.agrees
    (by rw [hvacated.same.length_eq]; exact hid) free
  refine ⟨⟨hvacated.same.trans hgrants.same, ⟨?_, fun j hj => ?_⟩, slots_writeBack⟩,
    hgrants.register⟩
  · exact hvacated.housed.orderly.of_same hgrants.same hgrants.agrees
  · by_cases hij : j = id
    · subst hij
      rw [hgrants.register]
      exact fun hno => by cases hno
    · rw [(hgrants.others j hij).2] at hj
      rw [(hgrants.others j hij).1]
      exact hvacated.housed.modified j hj

theorem moves_setOwner (h : storage.Housed) {owner : Option Owner}
    (free : ∀ j, storage.owner register ≠ some (.variable j))
    (hnew : ∀ j, owner ≠ some (.variable j)) : Moves storage [] (storage.setOwner register owner) := by
  have hk : Keeps [] storage Core.initial (storage.setOwner register owner) Core.initial :=
    .setOwner h.coherent free hnew
  exact .of_keeps h hk h.modified fun _ _ hs => (by cases hs)

theorem Loose.setOwner (h : storage.Loose) {owner : Option Owner}
    (hnew : ∀ j, owner ≠ some (.variable j)) : (storage.setOwner register owner).Loose := by
  intro r j
  by_cases hr : register = r
  · subst hr
    rw [owner_setOwner_self]
    exact hnew j
  · rw [owner_setOwner_of_ne _ hr]
    exact h r j

/-! ## Operations -/

theorem moves_bind (h : storage.Housed) (hid : id < storage.vars.length) (register : Register) :
    let outcome := (Storage.bind id register true).run storage
    Moves storage (code outcome.output) outcome.state ∧
      (outcome.result = .ok () → (outcome.state.get id).register = some register) := by
  intro outcome
  rcases register_cases h.agrees id register with hr | ⟨hne, free⟩ | ⟨hne, owner, howner, hother⟩
  · have hrun : outcome = ⟨.ok (), storage.fixed id, []⟩ := run_bind_here hr true
    rw [hrun]
    exact ⟨moves_fixed h id, fun _ => by rw [register_fixed, hr]⟩
  · have hrun : outcome = _ := run_bind_free hne free
    rw [hrun]
    exact (moves_bound h hid free).imp_right fun hreg _ => hreg
  · have hrun : outcome = _ := run_bind_held hne howner hother true
    rw [hrun]
    exact ⟨moves_fixed h id, fun hok => by cases hok⟩

theorem slots_load (register : Register) (r address : UInt8)
    (h : Instruction.store r address ∈ code (storage.writeBackCode id ++
      [.code (.loadMem register.byte (storage.get id).address)])) :
    ∃ id < storage.vars.length, (storage.get id).address = address := by
  rw [code_append] at h
  rcases List.mem_append.1 h with h | h
  · exact slots_writeBack r address h
  · cases List.mem_singleton.1 h

/-- After a load, the variable has the register if it is to keep it. -/
theorem moves_load (h : storage.Housed) (hid : id < storage.vars.length) (register : Register)
    (keep : Bool) :
    let outcome := (load id register keep).run storage
    Moves storage (code outcome.output) outcome.state ∧
      (outcome.result = .ok () → keep = true → (outcome.state.get id).register = some register) ∧
      (keep = false → storage.Loose → outcome.state.Loose) := by
  intro outcome
  rcases register_cases h.agrees id register with hr | ⟨hne, free⟩ | ⟨hne, owner, howner, hother⟩
  · have hrun : outcome = ⟨.ok (), storage, []⟩ := run_load_here hr keep
    rw [hrun]
    exact ⟨.refl h, fun _ _ => hr, fun _ loose => loose⟩
  · cases keep with
    | false =>
      have hrun : outcome = _ := run_load_copy hne free
      rw [hrun]
      refine ⟨{ moves_saved h id with slots := slots_load register }, fun _ hkeep => ?_,
        fun _ loose r j => ?_⟩
      · cases hkeep
      · rw [owner_saved]
        exact loose r j
    | true =>
      have hrun : outcome = _ := run_load_keep hne free
      rw [hrun]
      obtain ⟨hmoves, hreg⟩ := moves_bound h hid free
      exact ⟨{ hmoves with slots := slots_load register }, fun _ _ => hreg, fun hkeep => by cases hkeep⟩
  · have hrun : outcome = _ := run_load_held hne howner hother keep
    rw [hrun]
    exact ⟨.refl h, fun hok => (by cases hok), fun _ loose => loose⟩

theorem moves_pick (h : storage.Housed) (start : Nat) :
    let outcome := (pick start).run storage
    Moves storage (code outcome.output) outcome.state ∧
      (storage.Loose → outcome.state.Loose) := by
  intro outcome
  have hp : Picked storage start outcome := picked h.agrees start
  generalize outcome = outcome at hp
  cases hp with
  | free r _ _ => exact ⟨.refl h, fun loose => loose⟩
  | evicted r id note _ howner _ =>
    exact ⟨moves_released h ((h.agrees id r).2 howner), fun loose => absurd howner (loose r id)⟩
  | exhausted _ => exact ⟨.refl h, fun loose => loose⟩

theorem moves_scratch (h : storage.Housed) :
    Moves storage (code (scratch.run storage).output) (scratch.run storage).state := by
  obtain ⟨hmoves, -⟩ := moves_pick h 1
  unfold scratch
  rw [Action.run_bind]
  rcases hpick : (pick 1).run storage with ⟨_ | r, picked, output⟩
  · rw [hpick] at hmoves
    exact hmoves
  · rw [hpick] at hmoves
    have hfree := (owner_of_pick h.agrees hpick).2
    have hheld : Moves picked [] (picked.setOwner r (some .temporary)) :=
      moves_setOwner hmoves.housed (fun j => by rw [hfree]; simp) fun j => by simp
    rw [Outcome.andThen_ok, code_append]
    exact hmoves.trans hheld

theorem moves_reserve (h : storage.Housed) (register : Register) :
    let outcome := (reserve register).run storage
    Moves storage (code outcome.output) outcome.state ∧
      (storage.Loose → outcome.state.Loose) := by
  intro outcome
  by_cases hvar : ∃ j, storage.owner register = some (.variable j)
  · obtain ⟨j, howner⟩ := hvar
    have hrun : outcome = _ := run_reserve_variable h.agrees howner
    have hreleased := moves_released h ((h.agrees j register).2 howner)
    have hheld : Moves (storage.released j register) []
        ((storage.released j register).setOwner register (some .temporary)) :=
      moves_setOwner hreleased.housed (fun k => by rw [owner_released_self]; simp) fun k => by simp
    have hall := hreleased.trans hheld
    rw [List.append_nil] at hall
    rw [hrun]
    exact ⟨hall, fun loose => absurd howner (loose register j)⟩
  · have hother : ∀ j, storage.owner register ≠ some (.variable j) := fun j ho => hvar ⟨j, ho⟩
    have hrun : outcome = _ := run_reserve_other hother
    rw [hrun]
    exact ⟨moves_setOwner h hother fun j => by simp, fun loose => loose.setOwner fun j => by simp⟩

/-! ## Giving up all registers -/

/-- What giving up registers does: those given up are free, and those that were free stay so; a
modified variable in one of them is stored. -/
structure FlushesAt (registers : List Register) (before : Storage) (code : List Instruction)
    (after : Storage) : Prop where
  moves : Moves before code after
  free : ∀ r, r ∈ registers ∨ before.owner r = none → after.owner r = none
  stored : ∀ id, ∀ r ∈ registers, (before.get id).register = some r →
    (before.get id).modified = true → .store r.byte (before.get id).address ∈ code
  kept : ∀ id r, (before.get id).register = some r → r ∉ registers → after.get id = before.get id

theorem flushesAt_one (h : storage.Housed) (register : Register) :
    ∃ after events, (flushAt register).run storage = ⟨.ok (), after, events⟩ ∧
      FlushesAt [register] storage (code events) after := by
  have hown : ∀ {id r}, r ∈ [register] → (storage.get id).register = some r →
      storage.owner register = some (.variable id) := by
    intro id r hr hreg
    rw [List.mem_singleton.1 hr] at hreg
    exact (h.agrees id register).1 hreg
  rcases howner : storage.owner register with _ | ⟨id⟩ | _
  · -- A free register: nothing happens.
    refine ⟨_, _, run_flushAt_free howner, .refl h, ?_, fun j r hr hreg => ?_, fun _ _ _ _ => rfl⟩
    · rintro r (hr | hr)
      · rw [List.mem_singleton.1 hr, howner]
      · exact hr
    · rw [hown hr hreg] at howner
      cases howner
  · -- The register of a variable: it is written back if it is modified, and gives the register up.
    have hr := (h.agrees id register).2 howner
    refine ⟨_, _, run_flushAt_variable h.agrees howner, moves_released h hr, fun r hfree => ?_,
      fun j r hmem hreg hmod => ?_, fun j r hreg hmem => ?_⟩
    · by_cases heq : register = r
      · subst heq
        exact owner_released_self storage id register
      · rw [owner_released_of_ne heq]
        exact hfree.resolve_left fun hr => heq (List.mem_singleton.1 hr).symm
    · obtain rfl : id = j := by
        have := howner.symm.trans (hown hmem hreg)
        simpa using this
      rw [List.mem_singleton.1 hmem] at hreg ⊢
      simp [writeBackCode, hreg, hmod, code, StorageEvent.instruction?]
    · refine get_released_of_ne ?_ register
      rintro rfl
      rw [hr] at hreg
      exact hmem (by rw [Option.some.inj hreg]; exact List.mem_singleton_self _)
  · -- A value of the statement: it goes, and no variable is concerned.
    refine ⟨_, _, run_flushAt_temporary howner,
      moves_setOwner h (fun j => by rw [howner]; simp) fun j => by simp, fun r hfree => ?_,
      fun j r hr hreg => ?_, fun _ _ _ _ => rfl⟩
    · by_cases heq : register = r
      · subst heq
        exact owner_setOwner_self ..
      · rw [owner_setOwner_of_ne _ heq]
        exact hfree.resolve_left fun hr => heq (List.mem_singleton.1 hr).symm
    · rw [hown hr hreg] at howner
      cases howner

theorem flushesAt_all (h : storage.Housed) (registers : List Register) :
    ∃ after events, (registers.forM flushAt).run storage = ⟨.ok (), after, events⟩ ∧
      FlushesAt registers storage (code events) after := by
  induction registers generalizing storage with
  | nil =>
    exact ⟨storage, [], rfl, .refl h, fun r hr => hr.resolve_left (by simp),
      fun _ _ hr => (by cases hr), fun _ _ _ _ => rfl⟩
  | cons register rest ih =>
    obtain ⟨mid, events, hrun, hfirst⟩ := flushesAt_one h register
    obtain ⟨after, later, hrest, hlater⟩ := ih hfirst.moves.housed
    refine ⟨after, events ++ later, ?_, ?_⟩
    · rw [run_forM_cons, hrun, Outcome.andThen_ok, hrest]
    rw [code_append]
    refine ⟨hfirst.moves.trans hlater.moves, fun r hr => ?_, fun id r hr hreg hmod => ?_,
      fun id r hreg hr => ?_⟩
    · rcases hr with hr | hr
      · rcases List.mem_cons.1 hr with rfl | hr
        · exact hlater.free r (.inr (hfirst.free r (.inl (List.mem_singleton_self r))))
        · exact hlater.free r (.inl hr)
      · exact hlater.free r (.inr (hfirst.free r (.inr hr)))
    · by_cases heq : r = register
      · subst heq
        exact List.mem_append_left _
          (hfirst.stored id r (List.mem_singleton_self r) hreg hmod)
      · -- The variable is still in its register when its turn comes.
        have hsame := hfirst.kept id r hreg (by simpa using heq)
        refine List.mem_append_right _ ?_
        rw [← hsame] at hreg hmod ⊢
        exact hlater.stored id r ((List.mem_cons.1 hr).resolve_left heq) hreg hmod
    · rw [List.mem_cons, not_or] at hr
      have hsame := hfirst.kept id r hreg (by simpa using hr.1)
      rw [hlater.kept id r (by rw [hsame]; exact hreg) hr.2, hsame]

/-- Giving up all registers stores what is modified and settles the storage. -/
theorem moves_flush (h : storage.Housed) :
    ∃ after events, flush.run storage = ⟨.ok (), after, events⟩ ∧
      Moves storage (code events) after ∧ after.Loose ∧
      ∀ id r, (storage.get id).register = some r → (storage.get id).modified = true →
        .store r.byte (storage.get id).address ∈ code events := by
  obtain ⟨after, events, hrun, hall⟩ := flushesAt_all h (List.finRange 16)
  refine ⟨after, events, hrun, hall.moves, fun r id => ?_, fun id r hreg hmod => ?_⟩
  · rw [hall.free r (.inl (List.mem_finRange r))]
    simp
  · exact hall.stored id r (List.mem_finRange r) hreg hmod

end ByteBasic.Storage
