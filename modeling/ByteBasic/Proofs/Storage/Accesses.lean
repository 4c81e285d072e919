import ByteBasic.Proofs.Attempts
import ByteBasic.Proofs.Storage.Ownership
import ByteBasic.Storage.Registers

/-!
# Variables looked up by their numbers

The operations on the storage once more, as attempts: a number that was never given out leads to no
variable, and the operation comes to nothing. A register is one of sixteen by its type.

**Theorems (`follows_load`, `follows_bind` and so on).** As long as only variables that exist own
registers (`OwnersExist`), an operation on a variable that exists finds all that it looks up and is
the same as the operation that takes numbers for granted, and owners still exist afterwards.
-/

namespace ByteBasic

/-- An attempt at an operation on the storage. -/
abbrev StorageAttempt := Attempt StorageError Storage StorageEvent

namespace Storage

/-! ## Operations -/

/-- The variable of a number. -/
def record? (id : VarId) : StorageAttempt Variable :=
  Attempt.look fun storage => storage.vars[id]?

def change? (id : VarId) (change : Storage → Storage) : StorageAttempt Unit := do
  let _ ← record? id
  Attempt.modify change

def emit? (instruction : Instruction) : StorageAttempt Unit :=
  Attempt.put [.code instruction]

def holder? (owner : Owner) : StorageAttempt Holder :=
  Attempt.look fun storage =>
    match owner with
    | .variable id => storage.vars[id]?.map fun var => .variable var.name
    | .temporary => some .temporary

/-- Notes that a variable's register holds a value that its slot has not. -/
def markModified? (id : VarId) : StorageAttempt Unit :=
  change? id fun storage => storage.update id fun var => { var with modified := true }

def checkFree? (id : VarId) (register : Register) : StorageAttempt Unit := do
  let storage ← Attempt.get
  match storage.owner register with
  | none => pure ()
  | some owner =>
    if owner = .variable id then pure ()
    else do
      let holder ← holder? owner
      Attempt.fail (.conflict register holder)

/-- Writes a variable's register to its slot if the two may differ. -/
def writeBack? (id : VarId) : StorageAttempt Unit := do
  let var ← record? id
  match var.register, var.modified with
  | some register, true => do
    emit? (.store register.byte var.address)
    change? id fun storage => storage.update id fun var => { var with modified := false }
  | _, _ => pure ()

def release? (id : VarId) (register : Register) : StorageAttempt Unit := do
  let var ← record? id
  if var.register = some register then do
    writeBack? id
    change? id fun storage =>
      (storage.update id fun var => { var with clearable := false, register := none }).setOwner
        register none

/-- Keeps a variable's register from being taken away. -/
def forbidEviction? (id : VarId) : StorageAttempt Unit :=
  change? id fun storage => storage.update id fun var => { var with clearable := false }

def bind? (id : VarId) (register : Register) (overwrite : Bool) : StorageAttempt Unit := do
  forbidEviction? id
  let var ← record? id
  if var.register = some register then pure ()
  else do
    checkFree? id register
    match var.register with
    | none => pure ()
    | some previous =>
      if overwrite then do
        release? id previous
        forbidEviction? id
      else do
        let holder ← holder? (.variable id)
        Attempt.fail (.conflict previous holder)
    change? id fun storage =>
      (storage.update id fun var => { var with register := some register }).setOwner register
        (some (.variable id))

def load? (id : VarId) (register : Register) (keep : Bool) : StorageAttempt Unit := do
  let var ← record? id
  if var.register = some register then pure ()
  else do
    checkFree? id register
    if var.modified then writeBack? id
    emit? (.loadMem register.byte var.address)
    if keep then bind? id register true

/-- The first of some registers whose variable may lose it, with that variable. The variable of each
register is looked up on the way. -/
def evictableAmong? (storage : Storage) : List Register → Option (Option (Register × VarId))
  | [] => some none
  | register :: registers =>
    match storage.owner register with
    | some (.variable id) => do
      let var ← storage.vars[id]?
      if var.clearable then some (some (register, id)) else evictableAmong? storage registers
    | _ => evictableAmong? storage registers

/-- A register from a number on that nobody holds. -/
def pick? (start : Nat) : StorageAttempt Register := do
  let storage ← Attempt.get
  match storage.freeFrom? start with
  | some register => pure register
  | none =>
    match ← Attempt.look fun storage => storage.evictableAmong? (registersFrom start) with
    | some (register, id) => do
      let var ← record? id
      Attempt.put [.note ⟨.trace, "evicting " ++ var.name ++ " from r" ++
        Hex.numeral 1 register.val⟩]
      release? id register
      pure register
    | none => Attempt.fail .exhausted

def hold? (register : Register) : StorageAttempt Unit :=
  Attempt.modify fun storage => storage.setOwner register (some .temporary)

def scratch? : StorageAttempt Register := do
  let register ← pick? 1
  hold? register
  pure register

def reserve? (register : Register) : StorageAttempt Unit := do
  let storage ← Attempt.get
  match storage.owner register with
  | some (.variable id) => release? id register
  | _ => pure ()
  hold? register

def endStatementAt? (register : Register) : StorageAttempt Unit := do
  let storage ← Attempt.get
  match storage.owner register with
  | some .temporary => Attempt.modify fun storage => storage.setOwner register none
  | some (.variable id) =>
    change? id fun storage => storage.update id fun var => { var with clearable := true }
  | none => pure ()

/-- Gives up the values of the statement and lets every variable lose its register. -/
def endStatement? : StorageAttempt Unit :=
  (List.finRange 16).forM endStatementAt?

def flushAt? (register : Register) : StorageAttempt Unit := do
  let storage ← Attempt.get
  match storage.owner register with
  | some (.variable id) => release? id register
  | some .temporary => Attempt.modify fun storage => storage.setOwner register none
  | none => pure ()

def flush? : StorageAttempt Unit :=
  (List.finRange 16).forM flushAt?

/-! ## Owners -/

/-- Only variables that exist own registers. -/
def OwnersExist (storage : Storage) : Prop :=
  ∀ register id, storage.owner register = some (.variable id) → id < storage.vars.length

/-- The same number of variables, and owners exist. -/
structure Intact (before after : Storage) : Prop where
  owners : after.OwnersExist
  length_eq : after.vars.length = before.vars.length

variable {storage : Storage} {id : VarId} {register : Register}

theorem OwnersExist.update (h : storage.OwnersExist) (id : VarId) (f : Variable → Variable) :
    storage.Intact (storage.update id f) where
  owners register other howner := by
    rw [length_update]
    exact h register other howner
  length_eq := length_update storage id f

theorem OwnersExist.setOwner (h : storage.OwnersExist) (register : Register) (owner : Option Owner)
    (howner : ∀ id, owner = some (.variable id) → id < storage.vars.length) :
    storage.Intact (storage.setOwner register owner) where
  owners other id hid := by
    by_cases heq : register = other
    · rw [heq, owner_setOwner_self] at hid
      exact howner id hid
    · rw [owner_setOwner_of_ne storage heq] at hid
      exact h other id hid
  length_eq := rfl

namespace Intact

variable {before middle after : Storage}

theorem refl (h : storage.OwnersExist) : storage.Intact storage :=
  ⟨h, rfl⟩

theorem trans (h₁ : before.Intact middle) (h₂ : middle.Intact after) : before.Intact after :=
  ⟨h₂.owners, h₂.length_eq.trans h₁.length_eq⟩

theorem lt (h : before.Intact after) (hid : id < before.vars.length) : id < after.vars.length :=
  Nat.lt_of_lt_of_eq hid h.length_eq.symm

end Intact

/-! ## Finding all variables -/

variable {α : Type} {ok : α → Storage → Prop}

theorem getElem?_vars (h : id < storage.vars.length) :
    storage.vars[id]? = some (storage.get id) := by
  simp [get, h]

/-- A variable that exists is found, where the operation takes its number for granted. -/
theorem follows_variable {next? : Variable → StorageAttempt α} {action : StorageM α}
    (hid : id < storage.vars.length)
    (h : (next? (storage.get id)).Follows action storage ok) :
    (record? id >>= next?).Follows action storage ok :=
  .look (getElem?_vars hid) h

theorem follows_change {change : Storage → Storage} {ok : Unit → Storage → Prop}
    (hid : id < storage.vars.length) (h : ok () (change storage)) :
    (change? id change).Follows (Action.modify change) storage ok :=
  follows_variable hid (.modify h)

/-- An owner that exists has a name in error messages. -/
theorem follows_holder {owner : Owner} {next? : Holder → StorageAttempt α} {action : StorageM α}
    (howner : ∀ id, owner = .variable id → id < storage.vars.length)
    (h : (next? (storage.holder owner)).Follows action storage ok) :
    (holder? owner >>= next?).Follows action storage ok := by
  refine .look ?_ h
  rcases owner with id | _
  · simp only [getElem?_vars (howner id rfl)]
    rfl
  · rfl

theorem follows_checkFree (h : storage.OwnersExist) (id : VarId) (register : Register) :
    (checkFree? id register).Follows (checkFree id register) storage fun _ s => s = storage := by
  refine .get ?_
  rcases howner : storage.owner register with _ | owner
  · exact .pure rfl
  · refine .ite (fun _ => .pure rfl) fun _ => follows_holder (fun other hother => ?_) (.fail _)
    exact h register other (howner.trans (congrArg some hother))

theorem follows_put (storage : Storage) (events : List StorageEvent) :
    Attempt.Follows (Attempt.put events : StorageAttempt Unit) (Action.put events) storage
      fun _ s => s = storage :=
  .put rfl

theorem follows_emit (storage : Storage) (instruction : Instruction) :
    (emit? instruction).Follows (emit instruction) storage fun _ s => s = storage :=
  follows_put storage _

theorem follows_markModified (h : storage.OwnersExist) (hid : id < storage.vars.length) :
    (markModified? id).Follows (markModified id) storage fun _ s => storage.Intact s :=
  follows_change hid (h.update id _)

theorem follows_forbidEviction (h : storage.OwnersExist) (hid : id < storage.vars.length) :
    (forbidEviction? id).Follows (forbidEviction id) storage fun _ s => storage.Intact s :=
  follows_change hid (h.update id _)

theorem follows_writeBack (h : storage.OwnersExist) (hid : id < storage.vars.length) :
    (writeBack? id).Follows (writeBack id) storage fun _ s => storage.Intact s := by
  refine .reads (follows_variable hid ?_)
  dsimp only
  rcases (storage.get id).register with _ | register
  · exact .pure (.refl h)
  · rcases (storage.get id).modified with _ | _
    · exact .pure (.refl h)
    · refine (follows_emit storage _).bind ?_
      rintro _ s rfl
      exact follows_change hid (h.update id _)

theorem follows_release (h : storage.OwnersExist) (hid : id < storage.vars.length)
    (register : Register) :
    (release? id register).Follows (release id register) storage fun _ s => storage.Intact s := by
  refine .reads (follows_variable hid (.ite (fun _ => ?_) fun _ => .pure (.refl h)))
  refine (follows_writeBack h hid).bind fun _ s hs => ?_
  have hupdate := hs.owners.update id fun var => { var with clearable := false, register := none }
  have hset := hupdate.owners.setOwner register none fun _ howner => by cases howner
  exact follows_change (hs.lt hid) (hs.trans (hupdate.trans hset))

/-- Binding ends with giving the register to the variable. -/
theorem follows_give {before : Storage} (hs : before.Intact storage) (hid : id < before.vars.length)
    (register : Register) :
    (change? id fun storage =>
        (storage.update id fun var => { var with register := some register }).setOwner register
          (some (.variable id))).Follows
      (Action.modify fun storage =>
        (storage.update id fun var => { var with register := some register }).setOwner register
          (some (.variable id))) storage
      fun _ s => before.Intact s := by
  have hupdate := hs.owners.update id fun var => { var with register := some register }
  refine follows_change (hs.lt hid) (hs.trans (hupdate.trans (hupdate.owners.setOwner register _ ?_)))
  intro other hother
  cases hother
  exact hupdate.lt (hs.lt hid)

theorem follows_bind (h : storage.OwnersExist) (hid : id < storage.vars.length)
    (register : Register) (overwrite : Bool) :
    (bind? id register overwrite).Follows (bind id register overwrite) storage
      fun _ s => storage.Intact s := by
  refine (follows_forbidEviction h hid).bind fun _ s hs => ?_
  refine .reads (follows_variable (hs.lt hid) (.ite (fun _ => .pure hs) fun _ => ?_))
  refine (follows_checkFree hs.owners id register).bind ?_
  rintro _ s rfl
  dsimp only
  rcases (s.get id).register with _ | previous
  · exact follows_give hs hid register
  · refine .ite (fun _ => ?_) fun _ => follows_holder (fun other hother => ?_) ?_
    · refine (follows_release hs.owners (hs.lt hid) previous).bind fun _ s₁ hs₁ => ?_
      have hs₁ := hs.trans hs₁
      refine (follows_forbidEviction hs₁.owners (hs₁.lt hid)).bind fun _ s₂ hs₂ => ?_
      exact follows_give (hs₁.trans hs₂) hid register
    · cases hother
      exact hs.lt hid
    · exact .fail_bind _

theorem follows_load (h : storage.OwnersExist) (hid : id < storage.vars.length)
    (register : Register) (keep : Bool) :
    (load? id register keep).Follows (load id register keep) storage
      fun _ s => storage.Intact s := by
  refine .reads (follows_variable hid (.ite (fun _ => .pure (.refl h)) fun _ => ?_))
  refine (follows_checkFree h id register).bind ?_
  rintro _ s rfl
  dsimp only
  have hlast : ∀ s', s.Intact s' →
      (do
        emit? (.loadMem register.byte (s.get id).address)
        if keep then bind? id register true : StorageAttempt Unit).Follows
      (do
        emit (.loadMem register.byte (s.get id).address)
        if keep then bind id register true) s' fun _ s' => s.Intact s' := by
    intro s' hs'
    refine (follows_emit s' _).bind ?_
    rintro _ s' rfl
    refine .ite (fun _ => ?_) fun _ => .pure hs'
    exact (follows_bind hs'.owners (hs'.lt hid) register true).imp fun _ _ h => hs'.trans h
  refine .ite (fun _ => ?_) fun _ => hlast s (.refl h)
  exact (follows_writeBack h hid).bind fun _ s' hs' => hlast s' hs'

/-- A variable that was never declared is not found. -/
example : (load? 0 1 true).run empty = none := rfl

theorem evictableAmong?_eq (h : storage.OwnersExist) (registers : List Register) :
    storage.evictableAmong? registers = some (registers.findSome? fun register =>
      (storage.evictable? register).map fun id => (register, id)) := by
  induction registers with
  | nil => rfl
  | cons register registers ih =>
    rw [evictableAmong?, List.findSome?_cons, ih, evictable?]
    rcases howner : storage.owner register with _ | ⟨id⟩ | _
    · rfl
    · simp only [getElem?_vars (h register id howner), Option.bind_eq_bind, Option.bind_some]
      cases (storage.get id).clearable <;> rfl
    · rfl

theorem follows_pick (h : storage.OwnersExist) (start : Nat) :
    (pick? start).Follows (pick start) storage fun _ s => storage.Intact s := by
  refine .get ?_
  rcases storage.freeFrom? start with _ | register
  · refine .look (evictableAmong?_eq h _) ?_
    have hfrom : (registersFrom start).findSome? (fun register =>
        (storage.evictable? register).map fun id => (register, id)) =
        storage.evictableFrom? start := rfl
    rw [hfrom]
    rcases hfound : storage.evictableFrom? start with _ | ⟨register, id⟩
    · exact .fail _
    · have hid := h register id (evictableFrom?_eq_some hfound).2.1
      refine follows_variable hid ((follows_put storage _).bind ?_)
      rintro _ s rfl
      exact (follows_release h hid register).bind fun _ _ hs => .pure hs
  · exact .pure (.refl h)

theorem follows_hold (h : storage.OwnersExist) (register : Register) :
    (hold? register).Follows (hold register) storage fun _ s => storage.Intact s :=
  .modify (h.setOwner register _ fun _ howner => by cases howner)

theorem follows_scratch (h : storage.OwnersExist) :
    scratch?.Follows scratch storage fun _ s => storage.Intact s := by
  refine (follows_pick h 1).bind fun register _ hs => ?_
  exact (follows_hold hs.owners register).bind fun _ _ hs' => .pure (hs.trans hs')

theorem follows_reserve (h : storage.OwnersExist) (register : Register) :
    (reserve? register).Follows (reserve register) storage fun _ s => storage.Intact s := by
  refine .get ?_
  dsimp only
  rcases howner : storage.owner register with _ | ⟨id⟩ | _
  · exact follows_hold h register
  · refine (follows_release h (h register id howner) register).bind fun _ _ hs => ?_
    exact (follows_hold hs.owners register).imp fun _ _ hs' => hs.trans hs'
  · exact follows_hold h register

theorem follows_flushAt (h : storage.OwnersExist) (register : Register) :
    (flushAt? register).Follows (flushAt register) storage fun _ s => storage.Intact s := by
  refine .get ?_
  rcases howner : storage.owner register with _ | ⟨id⟩ | _
  · exact .pure (.refl h)
  · exact follows_release h (h register id howner) register
  · exact .modify (h.setOwner register _ fun _ hnone => by cases hnone)

theorem follows_flush (h : storage.OwnersExist) :
    flush?.Follows flush storage fun _ s => storage.Intact s :=
  .forM storage.Intact (.refl h) fun register _ hs =>
    (follows_flushAt hs.owners register).imp fun _ _ hs' => hs.trans hs'

theorem follows_endStatementAt (h : storage.OwnersExist) (register : Register) :
    (endStatementAt? register).Follows (Action.modify (endStatementAt register)) storage
      fun _ s => storage.Intact s := by
  have hrun : ∀ after, endStatementAt register storage = after →
      (Action.modify fun _ => after : StorageM Unit).run storage =
        (Action.modify (endStatementAt register)).run storage := by
    rintro _ rfl
    rfl
  refine .look rfl ?_
  rcases howner : storage.owner register with _ | ⟨id⟩ | _
  · refine (Attempt.Follows.pure (.refl h)).of_run_eq (hrun storage ?_)
    simp only [endStatementAt, howner]
  · refine (follows_change (h register id howner) (h.update id _)).of_run_eq (hrun _ ?_)
    simp only [endStatementAt, howner]
  · refine (Attempt.Follows.modify (h.setOwner register none fun _ hnone => by cases hnone)).of_run_eq
      (hrun _ ?_)
    simp only [endStatementAt, howner]

/-- The running operation gives up all registers at once. -/
theorem follows_endStatement (h : storage.OwnersExist) :
    endStatement?.Follows endStatement storage fun _ s => storage.Intact s := by
  have hall : ∀ (registers : List Register) (s : Storage), storage.Intact s →
      (registers.forM endStatementAt?).Follows
        (Action.modify fun storage =>
          registers.foldl (fun storage register => endStatementAt register storage) storage) s
        fun _ s' => storage.Intact s' := by
    intro registers
    induction registers with
    | nil => exact fun s hs => .modify hs
    | cons register registers ih =>
      intro s hs
      exact (follows_endStatementAt hs.owners register).bind fun _ s' hs' => ih s' (hs.trans hs')
  exact hall (List.finRange 16) storage (.refl h)

end Storage

end ByteBasic
