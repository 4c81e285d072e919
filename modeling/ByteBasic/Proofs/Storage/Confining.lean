import ByteBasic.Proofs.Storage.Operations

/-!
# Operations on some of the variables

An operation on the storage may move variables that its caller never mentions: whatever is in the
way is written back. What it can touch is bounded by what is held in registers at its start,
together with the variable it is asked for.

`Confines allowed` is an operation that, as long as only allowed variables are held in registers,
keeps it so, and loads from and stores to the slots of allowed variables only. The rule for one
operation after another is `Confines.bind`; the lemmas after it say of each operation that it is
confined to any set of variables that has the one it is asked for.
-/

namespace ByteBasic

/-- The memory cell that an instruction loads from or stores to. -/
def Instruction.cell? : Instruction → Option UInt8
  | .loadMem _ address => some address
  | .store _ address => some address
  | _ => none

namespace Storage

/-- Only allowed variables are held in registers. -/
def Confined (allowed : VarId → Prop) (storage : Storage) : Prop :=
  ∀ id, (storage.get id).register ≠ none → allowed id

/-- An operation that touches no variable but the allowed ones, whether it succeeds or not. -/
structure Confines {α : Type} (allowed : VarId → Prop) (operation : StorageM α) (storage : Storage) :
    Prop where
  same : SameVars storage (operation.run storage).state
  confined : (operation.run storage).state.Confined allowed
  cells : ∀ i ∈ code (operation.run storage).output, ∀ address, i.cell? = some address →
    ∃ id, allowed id ∧ (storage.get id).address = address

variable {α β : Type} {allowed : VarId → Prop} {storage : Storage} {id : VarId}
  {register : Register}

/-- A change of one variable that gives it no register, unless it is an allowed one. -/
theorem Confined.update (h : storage.Confined allowed) {f : Variable → Variable}
    (hregister : ∀ var, (f var).register ≠ none → var.register ≠ none ∨ allowed id) :
    (storage.update id f).Confined allowed := by
  intro j hj
  by_cases hid : id = j
  · subst hid
    by_cases hlt : id < storage.vars.length
    · rw [get_update_self storage hlt] at hj
      exact (hregister _ hj).elim (h id) fun h => h
    · rw [get_of_ge (by simpa using hlt)] at hj
      exact absurd rfl hj
  · rw [get_update_of_ne storage hid] at hj
    exact h j hj

/-! ## Steps of an operation -/

namespace Confines

theorem bind {operation : StorageM α} {next : α → StorageM β}
    (h : Confines allowed operation storage)
    (hnext : ∀ a s, SameVars storage s → s.Confined allowed → Confines allowed (next a) s) :
    Confines allowed (operation >>= next) storage := by
  obtain ⟨hsame, hconfined, hcells⟩ := h
  rcases hrun : operation.run storage with ⟨error | a, s, output⟩
  · have hall : (operation >>= next).run storage = ⟨.error error, s, output⟩ := by
      rw [Action.run_bind, hrun, Outcome.andThen_error]
    rw [hrun] at hsame hconfined hcells
    exact ⟨by rw [hall]; exact hsame, by rw [hall]; exact hconfined, by rw [hall]; exact hcells⟩
  · rw [hrun] at hsame hconfined hcells
    obtain ⟨hsame', hconfined', hcells'⟩ := hnext a s hsame hconfined
    have hall : (operation >>= next).run storage = ⟨((next a).run s).result, ((next a).run s).state,
        output ++ ((next a).run s).output⟩ := by
      rw [Action.run_bind, hrun, Outcome.andThen_ok]
    refine ⟨?_, ?_, ?_⟩
    · rw [hall]
      exact hsame.trans hsame'
    · rw [hall]
      exact hconfined'
    · rw [hall, code_append]
      intro i hi address haddress
      rcases List.mem_append.1 hi with hi | hi
      · exact hcells i hi address haddress
      · -- The slots are the same ones all along.
        obtain ⟨id, hid, hslot⟩ := hcells' i hi address haddress
        exact ⟨id, hid, by rw [← hslot, hsame.address_eq]⟩

theorem silent {operation : StorageM α} (hcode : code (operation.run storage).output = [])
    (hsame : SameVars storage (operation.run storage).state)
    (hconfined : (operation.run storage).state.Confined allowed) :
    Confines allowed operation storage := by
  refine ⟨hsame, hconfined, fun i hi => ?_⟩
  rw [hcode] at hi
  cases hi

theorem pure (h : storage.Confined allowed) (a : α) : Confines allowed (Pure.pure a) storage :=
  .silent rfl (.refl storage) h

theorem fail (h : storage.Confined allowed) (error : StorageError) :
    Confines allowed (Action.fail error : StorageM α) storage :=
  .silent rfl (.refl storage) h

theorem get {next : Storage → StorageM α} (h : Confines allowed (next storage) storage) :
    Confines allowed (Action.get >>= next) storage := by
  have hall : (Action.get >>= next).run storage = (next storage).run storage := by
    rw [Action.run_bind, Action.run_get, Outcome.andThen_ok_nil]
  exact ⟨by rw [hall]; exact h.same, by rw [hall]; exact h.confined, by rw [hall]; exact h.cells⟩

theorem ite {condition : Prop} [Decidable condition] {yes no : StorageM α}
    (hyes : condition → Confines allowed yes storage)
    (hno : ¬ condition → Confines allowed no storage) :
    Confines allowed (if condition then yes else no) storage := by
  split
  · next h => exact hyes h
  · next h => exact hno h

theorem forM {items : List β} {action : β → StorageM PUnit} (h : storage.Confined allowed)
    (hitem : ∀ item s, s.Confined allowed → Confines allowed (action item) s) :
    Confines allowed (items.forM action) storage := by
  induction items generalizing storage with
  | nil => exact .pure h _
  | cons item items ih => exact (hitem item storage h).bind fun _ s _ hs => ih hs

theorem modify {change : Storage → Storage} (hsame : SameVars storage (change storage))
    (hconfined : (change storage).Confined allowed) :
    Confines allowed (Action.modify change) storage :=
  .silent rfl hsame hconfined

theorem setOwner (h : storage.Confined allowed) (register : Register) (owner : Option Owner) :
    Confines allowed (Action.modify fun s => s.setOwner register owner) storage :=
  .modify (.refl storage) h

theorem emit {i : Instruction} (h : storage.Confined allowed)
    (hcell : ∀ address, i.cell? = some address → ∃ id, allowed id ∧ (storage.get id).address = address) :
    Confines allowed (Storage.emit i) storage := by
  refine ⟨.refl storage, h, fun j hj => ?_⟩
  obtain rfl : j = i := by simpa [Storage.emit, code, StorageEvent.instruction?] using hj
  exact hcell

end Confines

/-! ## The operations -/

theorem confines_writeBack (h : storage.Confined allowed) (id : VarId) :
    Confines allowed (writeBack id) storage := by
  refine .get ?_
  dsimp only
  split
  · next register hregister _ =>
    have hid : allowed id := h id (by rw [hregister]; simp)
    refine (Confines.emit h fun address haddress => ⟨id, hid, ?_⟩).bind fun _ s _ hs => ?_
    · exact Option.some.inj haddress
    · exact .modify (.update s id fun _ => rfl) (hs.update fun _ => .inl)
  · exact .pure h _

theorem confines_release (h : storage.Confined allowed) (id : VarId) (register : Register) :
    Confines allowed (release id register) storage := by
  refine .get (.ite (fun _ => ?_) fun _ => .pure h _)
  refine (confines_writeBack h id).bind fun _ s _ hs => ?_
  have hgiven : SameVars s (s.update id fun var => { var with clearable := false, register := none }) :=
    .update s id fun _ => rfl
  exact .modify hgiven (hs.update fun _ hno => absurd rfl hno)

theorem confines_forbidEviction (h : storage.Confined allowed) (id : VarId) :
    Confines allowed (forbidEviction id) storage :=
  .modify (.update storage id fun _ => rfl) (h.update fun _ => .inl)

theorem confines_markModified (h : storage.Confined allowed) (id : VarId) :
    Confines allowed (markModified id) storage :=
  .modify (.update storage id fun _ => rfl) (h.update fun _ => .inl)

theorem confines_checkFree (h : storage.Confined allowed) (id : VarId) (register : Register) :
    Confines allowed (checkFree id register) storage := by
  refine .get ?_
  split
  · exact .pure h _
  · exact .ite (fun _ => .pure h _) fun _ => .fail h _

theorem confines_bind (h : storage.Confined allowed) (hid : allowed id) (register : Register)
    (overwrite : Bool) : Confines allowed (Storage.bind id register overwrite) storage := by
  refine (confines_forbidEviction h id).bind fun _ s _ hs => .get ?_
  refine .ite (fun _ => .pure hs _) fun _ => ?_
  refine (confines_checkFree hs id register).bind fun _ s₁ _ hs₁ => ?_
  have hlast : ∀ s, s.Confined allowed → Confines allowed (Action.modify fun storage =>
      (storage.update id fun var => { var with register := some register }).setOwner register
        (some (.variable id))) s := by
    intro s hs
    have hgiven : SameVars s (s.update id fun var => { var with register := some register }) :=
      .update s id fun _ => rfl
    exact .modify hgiven (hs.update fun _ _ => .inr hid)
  split
  · exact (Confines.pure hs₁ ()).bind fun _ s₂ _ hs₂ => hlast s₂ hs₂
  · refine .ite (fun _ => ?_) fun _ => (Confines.fail hs₁ _).bind fun _ s₂ _ hs₂ => hlast s₂ hs₂
    refine (confines_release hs₁ id _).bind fun _ s₂ _ hs₂ => ?_
    exact (confines_forbidEviction hs₂ id).bind fun _ s₃ _ hs₃ => hlast s₃ hs₃

theorem confines_load (h : storage.Confined allowed) (hid : allowed id) (register : Register)
    (keep : Bool) : Confines allowed (load id register keep) storage := by
  refine .get (.ite (fun _ => .pure h _) fun _ => ?_)
  refine (confines_checkFree h id register).bind fun _ s hsame hs => ?_
  have hlast : ∀ s, SameVars storage s → s.Confined allowed → Confines allowed (do
      Storage.emit (.loadMem register.byte (storage.get id).address)
      if keep then Storage.bind id register true) s := by
    intro s hsame hs
    refine (Confines.emit hs fun address haddress => ⟨id, hid, ?_⟩).bind fun _ s' _ hs' => ?_
    · rw [hsame.address_eq]
      exact Option.some.inj haddress
    · exact .ite (fun _ => confines_bind hs' hid register true) fun _ => .pure hs' _
  refine .ite (fun _ => ?_) fun _ => ?_
  · exact (confines_writeBack hs id).bind fun _ s' hsame' hs' => hlast s' (hsame.trans hsame') hs'
  · exact hlast s hsame hs

theorem confines_pick (h : storage.Confined allowed) (start : Nat) :
    Confines allowed (pick start) storage := by
  refine .get ?_
  split
  · exact .pure h _
  · split
    · refine Confines.bind (.silent rfl (.refl storage) h) fun _ s _ hs => ?_
      exact (confines_release hs _ _).bind fun _ s' _ hs' => .pure hs' _
    · exact .fail h _

theorem confines_scratch (h : storage.Confined allowed) : Confines allowed scratch storage :=
  (confines_pick h 1).bind fun register _ _ hs =>
    (Confines.setOwner hs register (some .temporary)).bind fun _ _ _ hs' => .pure hs' _

theorem confines_reserve (h : storage.Confined allowed) (register : Register) :
    Confines allowed (reserve register) storage := by
  have hhold : ∀ s, s.Confined allowed → Confines allowed (hold register) s := fun s hs =>
    .setOwner hs register (some .temporary)
  refine .get ?_
  split
  · exact (confines_release h _ register).bind fun _ s _ hs => hhold s hs
  · exact (Confines.pure h ()).bind fun _ s _ hs => hhold s hs

theorem confines_flush (h : storage.Confined allowed) : Confines allowed flush storage := by
  refine .forM h fun register s hs => .get ?_
  split
  · exact confines_release hs _ register
  · exact .setOwner hs register none
  · exact .pure hs _

end Storage

end ByteBasic
