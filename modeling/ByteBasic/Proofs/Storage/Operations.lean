import ByteBasic.Proofs.Storage.Coherence

/-!
# What storage operations do

One lemma for each operation on the storage says what it leaves, puts out and gives back, so that
nothing after this module opens their definitions. The operations that take a register away are all
made of `release`, whose state is `Storage.released`; the one that gives a register is `bind`.
-/

namespace ByteBasic.Storage

/-- The instructions among what an operation puts out. -/
def code (events : List StorageEvent) : List Instruction :=
  events.filterMap StorageEvent.instruction?

@[simp] theorem code_nil : code [] = [] := rfl

@[simp] theorem code_append (xs ys : List StorageEvent) : code (xs ++ ys) = code xs ++ code ys :=
  List.filterMap_append

variable {storage : Storage} {id : VarId} {register : Register}

theorem update_update (storage : Storage) (id : VarId) (f g : Variable → Variable) :
    (storage.update id f).update id g = storage.update id fun var => g (f var) := by
  simp only [update, List.modify_modify_eq]
  rfl

/-- Two changes that agree on a variable as it stands are the same change. -/
theorem update_congr {f g : Variable → Variable} (h : f (storage.get id) = g (storage.get id)) :
    storage.update id f = storage.update id g := by
  unfold update
  congr 1
  apply List.ext_getElem?
  intro i
  simp only [List.getElem?_modify]
  by_cases hi : id = i
  · subst hi
    cases hv : storage.vars[id]? with
    | none => rfl
    | some var => simpa [get, hv] using h
  · simp [hi]

theorem update_eq_self {f : Variable → Variable} (h : f (storage.get id) = storage.get id) :
    storage.update id f = storage := by
  have hid : storage.update id (fun var => var) = storage := by
    have : storage.vars.modify id (fun var => var) = storage.vars := by
      apply List.ext_getElem?
      intro i
      rw [List.getElem?_modify]
      cases storage.vars[i]? <;> simp
    unfold update
    rw [this]
  exact (update_congr h).trans hid

/-! ## Writing back and releasing -/

/-- The code that writes a variable back. -/
def writeBackCode (storage : Storage) (id : VarId) : List StorageEvent :=
  match (storage.get id).register, (storage.get id).modified with
  | some register, true => [.code (.store register.byte (storage.get id).address)]
  | _, _ => []

theorem run_writeBack (hr : (storage.get id).register = some register) :
    (writeBack id).run storage =
      ⟨.ok (), storage.update id fun var => { var with modified := false },
        storage.writeBackCode id⟩ := by
  cases hm : (storage.get id).modified with
  | true => simp [writeBack, emit, writeBackCode, hr, hm, Outcome.andThen]
  | false =>
    have hsame : storage.update id (fun var => { var with modified := false }) = storage :=
      update_eq_self (by rw [← hm])
    simp [writeBack, writeBackCode, hr, hm, hsame]

theorem run_writeBack_unbound (hr : (storage.get id).register = none) :
    (writeBack id).run storage = ⟨.ok (), storage, []⟩ := by
  simp [writeBack, hr]

/-- The storage after a variable has given up a register. -/
def released (storage : Storage) (id : VarId) (register : Register) : Storage :=
  (storage.update id fun var =>
    { var with modified := false, clearable := false, register := none }).setOwner register none

theorem run_release (hr : (storage.get id).register = some register) :
    (release id register).run storage =
      ⟨.ok (), storage.released id register, storage.writeBackCode id⟩ := by
  simp [release, hr, run_writeBack hr, released, Outcome.andThen, update_update]

theorem run_release_other (hr : (storage.get id).register ≠ some register) :
    (release id register).run storage = ⟨.ok (), storage, []⟩ := by
  simp [release, hr]

/-! ## Binding -/

/-- The storage with a variable that may not be evicted. -/
def fixed (storage : Storage) (id : VarId) : Storage :=
  storage.update id fun var => { var with clearable := false }

/-- The storage after a variable has got a register. -/
def bound (storage : Storage) (id : VarId) (register : Register) : Storage :=
  (storage.update id fun var => { var with clearable := false, register := some register }).setOwner
    register (some (.variable id))

@[simp] theorem run_forbidEviction (storage : Storage) (id : VarId) :
    (forbidEviction id).run storage = ⟨.ok (), storage.fixed id, []⟩ := rfl

@[simp] theorem register_fixed (storage : Storage) (id j : VarId) :
    ((storage.fixed id).get j).register = (storage.get j).register :=
  field_update Variable.register storage id j fun _ => rfl

@[simp] theorem owner_fixed (storage : Storage) (id : VarId) (register : Register) :
    (storage.fixed id).owner register = storage.owner register := rfl

theorem writeBackCode_fixed (storage : Storage) (id j : VarId) :
    (storage.fixed id).writeBackCode j = storage.writeBackCode j := by
  have hm : ((storage.fixed id).get j).modified = (storage.get j).modified :=
    field_update Variable.modified storage id j fun _ => rfl
  have ha : ((storage.fixed id).get j).address = (storage.get j).address :=
    field_update Variable.address storage id j fun _ => rfl
  unfold writeBackCode
  rw [register_fixed, hm, ha]

theorem run_checkFree_none (h : storage.owner register = none) :
    (checkFree id register).run storage = ⟨.ok (), storage, []⟩ := by
  simp [checkFree, h]

theorem run_checkFree_held {owner : Owner} (h : storage.owner register = some owner)
    (hne : owner ≠ .variable id) :
    (checkFree id register).run storage =
      ⟨.error (.conflict register (storage.holder owner)), storage, []⟩ := by
  simp [checkFree, h, hne]

theorem run_bind_here (hr : (storage.get id).register = some register) (overwrite : Bool) :
    (Storage.bind id register overwrite).run storage = ⟨.ok (), storage.fixed id, []⟩ := by
  simp [Storage.bind, hr]

theorem run_bind_held {owner : Owner} (hr : (storage.get id).register ≠ some register)
    (h : storage.owner register = some owner) (hne : owner ≠ .variable id) (overwrite : Bool) :
    (Storage.bind id register overwrite).run storage =
      ⟨.error (.conflict register ((storage.fixed id).holder owner)), storage.fixed id, []⟩ := by
  have hheld : (storage.fixed id).owner register = some owner := h
  simp [Storage.bind, hr, run_checkFree_held hheld hne]

/-- The storage after a variable has given up whatever register it had. -/
def vacated (storage : Storage) (id : VarId) : Storage :=
  match (storage.get id).register with
  | none => storage
  | some register => storage.released id register

theorem released_fixed (storage : Storage) (id : VarId) (register : Register) :
    (storage.fixed id).released id register = storage.released id register := by
  unfold released fixed
  rw [update_update]

theorem writeBackCode_unbound (h : (storage.get id).register = none) :
    storage.writeBackCode id = [] := by
  unfold writeBackCode
  rw [h]

/-- A variable gets a free register after it has given up its old one. -/
theorem run_bind_free (hne : (storage.get id).register ≠ some register)
    (free : storage.owner register = none) :
    (Storage.bind id register true).run storage =
      ⟨.ok (), (storage.vacated id).bound id register, storage.writeBackCode id⟩ := by
  have hfree : (storage.fixed id).owner register = none := free
  cases hr : (storage.get id).register with
  | none =>
    simp only [Storage.bind, Action.run_bind, run_forbidEviction, Outcome.andThen_ok_nil,
      Action.run_get, register_fixed, hr, reduceCtorEq, if_false]
    rw [run_checkFree_none hfree]
    simp [fixed, bound, vacated, hr, writeBackCode_unbound hr, update_update]
  | some previous =>
    have hne' : previous ≠ register := fun e => hne (by rw [hr, e])
    have hrel : (release id previous).run (storage.fixed id) =
        ⟨.ok (), storage.released id previous, storage.writeBackCode id⟩ := by
      rw [run_release (by simpa using hr), released_fixed, writeBackCode_fixed]
    simp only [Storage.bind, Action.run_bind, run_forbidEviction, Outcome.andThen_ok_nil,
      Action.run_get, register_fixed, hr, Option.some.injEq, hne', if_false, if_true]
    rw [run_checkFree_none hfree]
    simp only [Action.run_bind, hrel, Outcome.andThen_ok, run_forbidEviction, Action.run_modify,
      List.append_nil, List.nil_append]
    simp only [fixed, bound, vacated, hr, update_update]

/-! ## Loading -/

/-- The storage after a variable has been written back. -/
def saved (storage : Storage) (id : VarId) : Storage :=
  match (storage.get id).register with
  | none => storage
  | some _ => storage.update id fun var => { var with modified := false }

theorem run_writeBack_saved (storage : Storage) (id : VarId) :
    (writeBack id).run storage = ⟨.ok (), storage.saved id, storage.writeBackCode id⟩ := by
  cases hr : (storage.get id).register with
  | none => rw [run_writeBack_unbound hr, writeBackCode_unbound hr]; simp [saved, hr]
  | some register => rw [run_writeBack hr]; simp [saved, hr]

theorem saved_eq_self (h : (storage.get id).modified = false) : storage.saved id = storage := by
  unfold saved
  split
  · rfl
  · exact update_eq_self (by rw [← h])

theorem register_saved (storage : Storage) (id j : VarId) :
    ((storage.saved id).get j).register = (storage.get j).register := by
  unfold saved
  split
  · rfl
  · exact field_update Variable.register storage id j fun _ => rfl

theorem owner_saved (storage : Storage) (id : VarId) (register : Register) :
    (storage.saved id).owner register = storage.owner register := by
  unfold saved
  split <;> rfl

theorem writeBackCode_clean (h : (storage.get id).modified = false) :
    storage.writeBackCode id = [] := by
  unfold writeBackCode
  rw [h]
  cases (storage.get id).register <;> rfl

theorem writeBackCode_saved (storage : Storage) (id : VarId) :
    (storage.saved id).writeBackCode id = [] := by
  cases hr : (storage.get id).register with
  | none => exact writeBackCode_unbound (by rw [register_saved, hr])
  | some register =>
    apply writeBackCode_clean
    simp only [saved, hr]
    rw [get_update_self storage (lt_of_register hr)]

theorem vacated_saved (storage : Storage) (id : VarId) :
    (storage.saved id).vacated id = storage.vacated id := by
  cases hr : (storage.get id).register with
  | none => simp [vacated, saved, hr]
  | some register =>
    simp only [vacated, register_saved, hr]
    simp only [saved, hr, released, update_update]

theorem run_load_here (hr : (storage.get id).register = some register) (keep : Bool) :
    (load id register keep).run storage = ⟨.ok (), storage, []⟩ := by
  simp [load, hr]

theorem run_load_held {owner : Owner} (hr : (storage.get id).register ≠ some register)
    (h : storage.owner register = some owner) (hne : owner ≠ .variable id) (keep : Bool) :
    (load id register keep).run storage =
      ⟨.error (.conflict register (storage.holder owner)), storage, []⟩ := by
  simp [load, hr, run_checkFree_held h hne]

/-- A load into a free register writes the variable back first. -/
theorem run_load_free (hne : (storage.get id).register ≠ some register)
    (free : storage.owner register = none) (keep : Bool) :
    (load id register keep).run storage =
      Outcome.andThen ⟨.ok (), storage.saved id, storage.writeBackCode id ++
          [.code (.loadMem register.byte (storage.get id).address)]⟩
        fun _ => if keep then Storage.bind id register true else pure () := by
  simp only [load, Action.run_bind, Action.run_get, Outcome.andThen_ok_nil, hne, if_false]
  rw [run_checkFree_none free]
  cases hm : (storage.get id).modified with
  | true =>
    simp [emit, run_writeBack_saved, Outcome.andThen]
  | false =>
    simp [emit, saved_eq_self hm, writeBackCode_clean hm, Outcome.andThen]

theorem run_load_copy (hne : (storage.get id).register ≠ some register)
    (free : storage.owner register = none) :
    (load id register false).run storage =
      ⟨.ok (), storage.saved id, storage.writeBackCode id ++
        [.code (.loadMem register.byte (storage.get id).address)]⟩ := by
  rw [run_load_free hne free]
  simp [Outcome.andThen]

theorem run_load_keep (hne : (storage.get id).register ≠ some register)
    (free : storage.owner register = none) :
    (load id register true).run storage =
      ⟨.ok (), (storage.vacated id).bound id register, storage.writeBackCode id ++
        [.code (.loadMem register.byte (storage.get id).address)]⟩ := by
  have hbind : (Storage.bind id register true).run (storage.saved id) =
      ⟨.ok (), (storage.vacated id).bound id register, []⟩ := by
    rw [run_bind_free (by rw [register_saved]; exact hne) (by rw [owner_saved]; exact free),
      vacated_saved, writeBackCode_saved]
  rw [run_load_free hne free]
  simp [Outcome.andThen, hbind]

/-! ## Finding registers -/

theorem mem_registersFrom {start : Nat} : register ∈ registersFrom start ↔ start ≤ register.val := by
  simp [registersFrom]

theorem freeFrom?_eq_some {start : Nat} (h : storage.freeFrom? start = some register) :
    start ≤ register.val ∧ storage.owner register = none := by
  have hmem := List.mem_of_find?_eq_some h
  have hfree := List.find?_some h
  exact ⟨mem_registersFrom.1 hmem, by simpa using hfree⟩

theorem evictable?_eq_some (h : storage.evictable? register = some id) :
    storage.owner register = some (.variable id) ∧ (storage.get id).clearable = true := by
  unfold evictable? at h
  split at h
  · next howner =>
    split at h
    · next hc =>
      obtain rfl := Option.some.inj h
      exact ⟨howner, hc⟩
    · cases h
  · cases h

theorem evictableFrom?_eq_some {start : Nat}
    (h : storage.evictableFrom? start = some (register, id)) :
    start ≤ register.val ∧ storage.owner register = some (.variable id) ∧
      (storage.get id).clearable = true := by
  obtain ⟨r, hr, hmap⟩ := List.exists_of_findSome?_eq_some h
  obtain ⟨i, hi, he⟩ := Option.map_eq_some_iff.1 hmap
  obtain ⟨rfl, rfl⟩ := Prod.mk.inj he
  exact ⟨mem_registersFrom.1 hr, evictable?_eq_some hi⟩

/-- What picking a register comes to: a free one, one whose variable loses it, or none at all. -/
inductive Picked (storage : Storage) (start : Nat) :
    Outcome StorageError Storage StorageEvent Register → Prop
  | free (register : Register) (hstart : start ≤ register.val)
      (hfree : storage.owner register = none) : Picked storage start ⟨.ok register, storage, []⟩
  | evicted (register : Register) (id : VarId) (note : Note) (hstart : start ≤ register.val)
      (howner : storage.owner register = some (.variable id))
      (hclear : (storage.get id).clearable = true) :
      Picked storage start
        ⟨.ok register, storage.released id register, .note note :: storage.writeBackCode id⟩
  | exhausted (hheld : ∀ register : Register, start ≤ register.val →
      storage.owner register ≠ none ∧ storage.evictable? register = none) :
      Picked storage start ⟨.error .exhausted, storage, []⟩

theorem picked (ha : storage.Agrees) (start : Nat) :
    Picked storage start ((pick start).run storage) := by
  cases hf : storage.freeFrom? start with
  | some register =>
    have hrun : (pick start).run storage = ⟨.ok register, storage, []⟩ := by simp [pick, hf]
    rw [hrun]
    exact .free register (freeFrom?_eq_some hf).1 (freeFrom?_eq_some hf).2
  | none =>
    cases he : storage.evictableFrom? start with
    | some found =>
      obtain ⟨register, id⟩ := found
      obtain ⟨hstart, howner, hclear⟩ := evictableFrom?_eq_some he
      have hr := (ha id register).2 howner
      simp only [pick, Action.run_bind, Action.run_get, hf, he, Action.run_put, Outcome.andThen_ok,
        run_release hr, Action.run_pure, List.append_nil, List.nil_append, List.singleton_append]
      exact .evicted register id _ hstart howner hclear
    | none =>
      have hrun : (pick start).run storage = ⟨.error .exhausted, storage, []⟩ := by
        simp [pick, hf, he]
      rw [hrun]
      refine .exhausted fun register hstart => ?_
      have hmem := mem_registersFrom.2 hstart
      have h₁ := List.find?_eq_none.1 hf register hmem
      have h₂ := List.findSome?_eq_none_iff.1 he register hmem
      exact ⟨by simpa using h₁, by simpa using h₂⟩

theorem run_hold (storage : Storage) (register : Register) :
    (hold register).run storage = ⟨.ok (), storage.setOwner register (some .temporary), []⟩ := rfl

theorem run_reserve_variable (ha : storage.Agrees)
    (h : storage.owner register = some (.variable id)) :
    (reserve register).run storage =
      ⟨.ok (), (storage.released id register).setOwner register (some .temporary),
        storage.writeBackCode id⟩ := by
  simp only [reserve, Action.run_bind, Action.run_get, h, run_release ((ha id register).2 h),
    Outcome.andThen_ok, run_hold, List.append_nil, List.nil_append]

theorem run_reserve_other (h : ∀ id, storage.owner register ≠ some (.variable id)) :
    (reserve register).run storage =
      ⟨.ok (), storage.setOwner register (some .temporary), []⟩ := by
  simp only [reserve, Action.run_bind, Action.run_get, Outcome.andThen_ok_nil]
  rcases howner : storage.owner register with _ | ⟨id⟩ | _
  · simp [run_hold]
  · exact absurd howner (h id)
  · simp [run_hold]

/-! ## Giving registers up -/

theorem run_flushAt_variable (ha : storage.Agrees)
    (h : storage.owner register = some (.variable id)) :
    (flushAt register).run storage =
      ⟨.ok (), storage.released id register, storage.writeBackCode id⟩ := by
  simp only [flushAt, Action.run_bind, Action.run_get, Outcome.andThen_ok_nil, h,
    run_release ((ha id register).2 h)]

theorem run_flushAt_temporary (h : storage.owner register = some .temporary) :
    (flushAt register).run storage = ⟨.ok (), storage.setOwner register none, []⟩ := by
  simp [flushAt, h]

theorem run_flushAt_free (h : storage.owner register = none) :
    (flushAt register).run storage = ⟨.ok (), storage, []⟩ := by
  simp [flushAt, h]

end ByteBasic.Storage
