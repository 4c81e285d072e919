import ByteBasic.Proofs.Storage.Serving

/-!
# Owners and slots

A storage has two tables, one of variables with their registers and one of registers with their
owners. They are changed one after the other by a dozen operations, some of which use each other and
some of which fail half way. `Orderly` is what holds of every storage that such requests lead to,
whether they are granted or refused.

**Theorem (`owners_match_records`).** After any requests to an empty storage, a variable records a
register exactly when it owns it, the variables stand in the order in which they were declared, the
one with the number `k` has the slot `255 - k`, and no name is declared twice in a scope.

The operations that only move values keep the tables in step because they keep every coherent pair
coherent (`harmless_operation`): a core that is all zeros goes with any orderly storage. What is left
are declarations, bindings and the mark of a modified variable.
-/

namespace ByteBasic.Storage

variable {storage before after : Storage} {name : String} {scope : Scope} {id : VarId}
variable {register : Register}

/-! ## Declarations -/

def extended (storage : Storage) (name : String) (scope : Scope) : Storage :=
  { storage with
    vars := storage.vars ++ [Variable.new name scope (UInt8.ofNat storage.nextAddress)] }

theorem length_extended (storage : Storage) (name : String) (scope : Scope) :
    (storage.extended name scope).vars.length = storage.vars.length + 1 := by
  simp [extended]

theorem get_extended_of_lt (h : id < storage.vars.length) :
    (storage.extended name scope).get id = storage.get id := by
  simp [get, extended, List.getElem?_append_left h]

theorem get_extended_self (storage : Storage) (name : String) (scope : Scope) :
    (storage.extended name scope).get storage.vars.length =
      .new name scope (UInt8.ofNat storage.nextAddress) := by
  simp [get, extended]

@[simp] theorem owner_extended (storage : Storage) (name : String) (scope : Scope) (r : Register) :
    (storage.extended name scope).owner r = storage.owner r := rfl

theorem register_extended (storage : Storage) (name : String) (scope : Scope) (id : VarId) :
    ((storage.extended name scope).get id).register = (storage.get id).register := by
  rcases Nat.lt_trichotomy id storage.vars.length with h | rfl | h
  · rw [get_extended_of_lt h]
  · rw [get_extended_self, get_of_ge (Nat.le_refl _)]
    rfl
  · rw [get_of_ge (by rw [length_extended]; exact h), get_of_ge (Nat.le_of_lt h)]

theorem agrees_extended (h : storage.Agrees) : (storage.extended name scope).Agrees := by
  intro id r
  rw [register_extended, owner_extended]
  exact h id r

theorem address_extended
    (h : ∀ id < storage.vars.length, (storage.get id).address = UInt8.ofNat (255 - id)) :
    ∀ id < (storage.extended name scope).vars.length,
      ((storage.extended name scope).get id).address = UInt8.ofNat (255 - id) := by
  intro id hid
  rw [length_extended] at hid
  rcases Nat.lt_succ_iff_lt_or_eq.1 hid with hid | rfl
  · rw [get_extended_of_lt hid]
    exact h id hid
  · rw [get_extended_self]
    rfl

theorem tidy_extended (h : storage.Tidy) (room : storage.vars.length < 255) :
    (storage.extended name scope).Tidy where
  agrees := agrees_extended h.agrees
  length_le := by
    rw [length_extended]
    exact room
  address := address_extended h.address
  zero := h.zero

theorem unpinned_extended (h : storage.Unpinned) (agrees : storage.Agrees) :
    (storage.extended name scope).Unpinned := by
  rintro r (ht | ⟨id, howner, hclear⟩)
  · exact h r (.inl ht)
  · have hid := lt_of_register ((agrees id r).2 howner)
    rw [get_extended_of_lt hid] at hclear
    exact h r (.inr ⟨id, howner, hclear⟩)

/-- What a declaration does to the storage: a name that is new in its scope gets a variable. -/
def Declares (name : String) (scope : Scope) (before after : Storage) (id : VarId) : Prop :=
  before.find? name scope = some id ∧ after = before ∨
    before.find? name scope = none ∧ id = before.vars.length ∧ after = before.extended name scope

/-- A declaration of a new name succeeds or finds no room. -/
theorem run_declare {codeSize : Nat} (hnew : storage.find? name scope = none) :
    (∃ note, storage.vars.length < 255 ∧ (declare name scope codeSize).run storage =
      ⟨.ok storage.vars.length, storage.extended name scope, [.note note]⟩) ∨
    (declare name scope codeSize).run storage = ⟨.error (.outOfMemory name), storage, []⟩ := by
  unfold declare
  rw [Action.run_bind, Action.run_get, Outcome.andThen_ok_nil]
  simp only [hnew, Option.isSome_none, Bool.false_eq_true, if_false]
  split
  · next hroom =>
    have hlt : storage.vars.length < 255 := by
      unfold nextAddress at hroom
      omega
    exact .inl ⟨_, hlt, rfl⟩
  · exact .inr rfl

/-! ## Orderly storages -/

/-- The variables by their numbers, with their names and scopes. -/
def roster (storage : Storage) : List (VarId × String × Scope) :=
  (storage.vars.map fun var => (var.name, var.scope)).mapIdx fun id entry => (id, entry)

/-- What holds of a storage whatever was asked of it. -/
structure Orderly (storage : Storage) : Prop where
  agrees : storage.Agrees
  length_le : storage.vars.length ≤ 255
  address : ∀ id < storage.vars.length, (storage.get id).address = UInt8.ofNat (255 - id)
  names : (storage.vars.map fun var => (var.name, var.scope)).Nodup

theorem roster_of_same (h : SameVars before after) : after.roster = before.roster := by
  unfold roster
  rw [h.names_eq]

theorem roster_extended (storage : Storage) (name : String) (scope : Scope) :
    (storage.extended name scope).roster =
      storage.roster ++ [(storage.vars.length, name, scope)] := by
  simp [roster, extended, Variable.new]

/-- The name of a variable is not found before it is declared. -/
theorem not_mem_of_find? (h : storage.find? name scope = none) :
    (name, scope) ∉ storage.vars.map fun var => (var.name, var.scope) := by
  intro hmem
  obtain ⟨var, hvar, heq⟩ := List.mem_map.1 hmem
  obtain ⟨rfl, rfl⟩ := Prod.mk.inj heq
  have hno := List.findIdx?_eq_none_iff.1 h var hvar
  simp at hno

namespace Orderly

theorem distinct (h : storage.Orderly) : storage.Distinct :=
  distinct_of_address h.length_le h.address

theorem coherent (h : storage.Orderly) : storage.Coherent Core.initial :=
  coherent_initial h.agrees h.distinct

theorem of_same (h : before.Orderly) (same : SameVars before after) (agrees : after.Agrees) :
    after.Orderly where
  agrees := agrees
  length_le := by
    rw [same.length_eq]
    exact h.length_le
  address id hid := by
    rw [same.address_eq]
    exact h.address id (by rwa [same.length_eq] at hid)
  names := by
    rw [same.names_eq]
    exact h.names

theorem extended (h : storage.Orderly) (hnew : storage.find? name scope = none)
    (room : storage.vars.length < 255) : (storage.extended name scope).Orderly where
  agrees := agrees_extended h.agrees
  length_le := by
    rw [length_extended]
    exact room
  address := address_extended h.address
  names := by
    have hnames : ((storage.extended name scope).vars.map fun var => (var.name, var.scope)) =
        (storage.vars.map fun var => (var.name, var.scope)) ++ [(name, scope)] := by
      simp [Storage.extended, Variable.new]
    rw [hnames]
    refine List.nodup_append.2 ⟨h.names, by simp, ?_⟩
    intro entry hentry other hother heq
    rw [List.mem_singleton] at hother
    subst hother heq
    exact not_mem_of_find? hnew hentry

/-- Variables are known by their names and scopes. -/
theorem name_inj (h : storage.Orderly) {i j : VarId} (hi : i < storage.vars.length)
    (hj : j < storage.vars.length) (hname : (storage.get i).name = (storage.get j).name)
    (hscope : (storage.get i).scope = (storage.get j).scope) : i = j := by
  have hnames := List.pairwise_map.1 h.names
  rw [get_eq_getElem hi, get_eq_getElem hj] at hname hscope
  rcases Nat.lt_trichotomy i j with hlt | heq | hlt
  · exact absurd (Prod.ext hname hscope) (List.pairwise_iff_getElem.1 hnames i j hi hj hlt)
  · exact heq
  · exact absurd (Prod.ext hname.symm hscope.symm)
      (List.pairwise_iff_getElem.1 hnames j i hj hi hlt)

end Orderly

theorem orderly_empty : empty.Orderly where
  agrees := tidy_empty.agrees
  length_le := tidy_empty.length_le
  address := tidy_empty.address
  names := List.nodup_nil

/-! ## Bindings -/

/-- A variable that would have to give up its register to be bound is in its own way. -/
theorem run_bind_kept {previous : Register} (hr : (storage.get id).register = some previous)
    (hne : previous ≠ register) (free : storage.owner register = none) :
    (Storage.bind id register false).run storage =
      ⟨.error (.conflict previous ((storage.fixed id).holder (.variable id))), storage.fixed id,
        []⟩ := by
  have hfree : (storage.fixed id).owner register = none := free
  simp only [Storage.bind, Action.run_bind, run_forbidEviction, Outcome.andThen_ok_nil,
    Action.run_get, register_fixed, hr, Option.some.injEq, hne, if_false]
  rw [run_checkFree_none hfree]
  simp only [Outcome.andThen_ok_nil, Bool.false_eq_true, if_false, Action.run_bind, Action.run_fail,
    Outcome.andThen_error]

theorem run_bind_new (hr : (storage.get id).register = none) (free : storage.owner register = none)
    (overwrite : Bool) :
    (Storage.bind id register overwrite).run storage = ⟨.ok (), storage.bound id register, []⟩ := by
  rw [← run_bind_unbound hr free]
  simp only [Storage.bind, Action.run_bind, run_forbidEviction, Outcome.andThen_ok_nil,
    Action.run_get, register_fixed, hr]

/-- A binding ends in one of two ways, whether it succeeds or not: either the variable keeps what it
has, or it gives that up for a free register. -/
theorem state_bind (ha : storage.Agrees) (id : VarId) (register : Register) (overwrite : Bool) :
    ((Storage.bind id register overwrite).run storage).state = storage.fixed id ∨
      storage.owner register = none ∧
        ((Storage.bind id register overwrite).run storage).state =
          (storage.vacated id).bound id register := by
  rcases register_cases ha id register with hr | ⟨hne, free⟩ | ⟨hne, owner, howner, hother⟩
  · left
    rw [run_bind_here hr]
  · cases hr : (storage.get id).register with
    | none =>
      right
      have hvacated : storage.vacated id = storage := by simp [vacated, hr]
      rw [run_bind_new hr free, hvacated]
      exact ⟨free, rfl⟩
    | some previous =>
      cases overwrite with
      | true =>
        right
        rw [run_bind_free hne free]
        exact ⟨free, rfl⟩
      | false =>
        left
        rw [run_bind_kept hr (fun e => hne (by rw [hr, e])) free]
  · left
    rw [run_bind_held hne howner hother]

theorem agrees_update (h : storage.Agrees) (id : VarId) {f : Variable → Variable}
    (hreg : ∀ var, (f var).register = var.register) : (storage.update id f).Agrees := by
  intro j r
  rw [field_update Variable.register storage id j hreg, owner_update]
  exact h j r

theorem Orderly.bind (h : storage.Orderly) (hid : id < storage.vars.length) (register : Register)
    (overwrite : Bool) :
    SameVars storage ((Storage.bind id register overwrite).run storage).state ∧
      ((Storage.bind id register overwrite).run storage).state.Agrees := by
  rcases state_bind h.agrees id register overwrite with hstate | ⟨free, hstate⟩
  · rw [hstate]
    exact ⟨.update storage id fun _ => rfl, agrees_update h.agrees id fun _ => rfl⟩
  · have hvacated : Keeps [] storage Core.initial (storage.vacated id)
        (Core.initial.executeAll .singleBit _) := keeps_vacated h.coherent id
    have hgrants := grants_bound hvacated.coherent.agrees
      (by rw [hvacated.same.length_eq]; exact hid) free
    rw [hstate]
    exact ⟨hvacated.same.trans hgrants.same, hgrants.agrees⟩

/-! ## Requests -/

/-- What can be asked of a storage. -/
inductive Request
  | declare (name : String) (scope : Scope) (codeSize : Nat)
  | bind (id : VarId) (register : Register) (overwrite : Bool)
  | markModified (id : VarId)
  /-- One of the operations that move values and change none. -/
  | move (operation : Operation)
  deriving DecidableEq

namespace Request

/-- The request itself, whatever it gives back. -/
def action : Request → StorageM Unit
  | .declare name scope codeSize => do
    let _ ← Storage.declare name scope codeSize
    return ()
  | .bind id register overwrite => Storage.bind id register overwrite
  | .markModified id => Storage.markModified id
  | .move operation => operation.action

def InRange (storage : Storage) : Request → Prop
  | .declare _ _ _ => True
  | .bind id _ _ => id < storage.vars.length
  | .markModified id => id < storage.vars.length
  | .move operation => operation.InRange storage

instance (storage : Storage) : DecidablePred (Operation.InRange storage) := fun operation =>
  match operation with
  | .load id _ _ | .writeBack id | .allowEviction id | .release id _ =>
    inferInstanceAs (Decidable (id < storage.vars.length))
  | .pick _ | .scratch | .reserve _ | .endStatement | .flush => inferInstanceAs (Decidable True)

instance (storage : Storage) : DecidablePred (InRange storage) := fun request =>
  match request with
  | .declare _ _ _ => inferInstanceAs (Decidable True)
  | .bind id _ _ | .markModified id => inferInstanceAs (Decidable (id < storage.vars.length))
  | .move operation => inferInstanceAs (Decidable (operation.InRange storage))

/-- The variable that a request declares, if it does, with its number. -/
def declared (storage : Storage) : Request → List (VarId × String × Scope)
  | .declare name scope codeSize =>
    match ((Storage.declare name scope codeSize).run storage).result with
    | .ok id => [(id, name, scope)]
    | .error _ => []
  | _ => []

end Request

/-- The storage after requests, and the variables declared by them, in order. -/
def serve : List Request → Storage → Storage × List (VarId × String × Scope)
  | [], storage => (storage, [])
  | request :: rest, storage =>
    let later := serve rest (request.action.run storage).state
    (later.1, request.declared storage ++ later.2)

/-- The variable of every request exists when its turn comes. -/
def AllInRange : List Request → Storage → Prop
  | [], _ => True
  | request :: rest, storage =>
    request.InRange storage ∧ AllInRange rest (request.action.run storage).state

instance decidableAllInRange : ∀ requests storage, Decidable (AllInRange requests storage)
  | [], _ => inferInstanceAs (Decidable True)
  | request :: rest, storage =>
    have := decidableAllInRange rest (request.action.run storage).state
    inferInstanceAs (Decidable (_ ∧ _))

/-- What one request does: the storage stays orderly, and what it declares is added to the roster. -/
structure Request.Settles (storage : Storage) (request : Request) : Prop where
  orderly : (request.action.run storage).state.Orderly
  roster : (request.action.run storage).state.roster = storage.roster ++ request.declared storage

/-- A request that keeps the variables and the agreement of the tables. -/
theorem Orderly.settles (h : storage.Orderly) {request : Request}
    (hnone : request.declared storage = [])
    (same : SameVars storage (request.action.run storage).state)
    (agrees : (request.action.run storage).state.Agrees) : request.Settles storage where
  orderly := h.of_same same agrees
  roster := by rw [roster_of_same same, hnone, List.append_nil]

/-- A declaration that is refused changes nothing. -/
theorem Orderly.settles_refused (h : storage.Orderly) {codeSize : Nat} {error : StorageError}
    (hrun : (Storage.declare name scope codeSize).run storage = ⟨.error error, storage, []⟩) :
    (Request.declare name scope codeSize).Settles storage := by
  have hstate : ((Request.declare name scope codeSize).action.run storage).state = storage := by
    simp only [Request.action, Action.run_bind, hrun, Outcome.andThen_error]
  refine h.settles ?_ ?_ ?_
  · simp only [Request.declared, hrun]
  · rw [hstate]
    exact .refl storage
  · rw [hstate]
    exact h.agrees

theorem Orderly.settles_declare (h : storage.Orderly) (name : String) (scope : Scope)
    (codeSize : Nat) : (Request.declare name scope codeSize).Settles storage := by
  cases hfind : storage.find? name scope with
  | some id =>
    have hrun : (Storage.declare name scope codeSize).run storage =
        ⟨.error (.duplicate name), storage, []⟩ := by
      simp [Storage.declare, hfind]
    exact h.settles_refused hrun
  | none =>
    rcases (run_declare hfind : (∃ note, _ ∧ (Storage.declare name scope codeSize).run _ = _) ∨ _)
      with ⟨note, room, hrun⟩ | hrun
    · have hstate : ((Request.declare name scope codeSize).action.run storage).state =
          storage.extended name scope := by
        simp only [Request.action, Action.run_bind, hrun, Outcome.andThen_ok, Action.run_pure]
      refine ⟨?_, ?_⟩
      · rw [hstate]
        exact h.extended hfind room
      · rw [hstate, roster_extended]
        simp only [Request.declared, hrun]
    · exact h.settles_refused hrun

/-- Every request keeps the storage orderly. -/
theorem Orderly.step (h : storage.Orderly) (request : Request) (hin : request.InRange storage) :
    request.Settles storage := by
  cases request with
  | declare name scope codeSize => exact h.settles_declare name scope codeSize
  | bind id register overwrite =>
    obtain ⟨hsame, hagrees⟩ := h.bind hin register overwrite
    exact h.settles rfl hsame hagrees
  | markModified id =>
    exact h.settles rfl (.update storage id fun _ => rfl) (agrees_update h.agrees id fun _ => rfl)
  | move operation =>
    have hkeeps : Harmless .singleBit operation.target storage Core.initial _ :=
      harmless_operation h.coherent operation hin
    exact h.settles rfl hkeeps.same hkeeps.coherent.agrees

/-- All requests do, one after the other. -/
theorem Orderly.serve (h : storage.Orderly) (requests : List Request)
    (hin : AllInRange requests storage) :
    (serve requests storage).1.Orderly ∧
      (serve requests storage).1.roster = storage.roster ++ (serve requests storage).2 := by
  induction requests generalizing storage with
  | nil => exact ⟨h, (List.append_nil _).symm⟩
  | cons request rest ih =>
    have hstep := h.step request hin.1
    obtain ⟨horderly, hroster⟩ := ih hstep.orderly hin.2
    refine ⟨horderly, hroster.trans ?_⟩
    rw [hstep.roster, List.append_assoc]
    rfl

/-- **Both tables tell the same.** Whatever is asked of an empty storage, in whatever order and with
whatever success: a variable records a register exactly when it owns it; the `k`-th variable that is
declared has the number `k`, keeps its name and scope, and has the slot `255 - k`, which is not zero;
and no two variables have the same name and scope. -/
theorem owners_match_records (requests : List Request) (h : AllInRange requests empty) :
    let storage := (serve requests empty).1
    let declared := (serve requests empty).2
    (∀ id register, (storage.get id).register = some register ↔
      storage.owner register = some (.variable id)) ∧
    storage.vars.length = declared.length ∧
    (∀ (k : Nat) id name scope, declared[k]? = some (id, name, scope) →
      id = k ∧ (storage.get id).name = name ∧ (storage.get id).scope = scope ∧
        (storage.get id).address.toNat = 255 - k ∧ 1 ≤ (storage.get id).address.toNat) ∧
    ∀ i < storage.vars.length, ∀ j < storage.vars.length,
      (storage.get i).name = (storage.get j).name →
        (storage.get i).scope = (storage.get j).scope → i = j := by
  intro storage declared
  obtain ⟨horderly, hroster⟩ := orderly_empty.serve requests h
  have hdeclared : storage.roster = declared := hroster
  refine ⟨horderly.agrees, ?_, fun k id name scope hk => ?_, fun i hi j hj hname hscope => ?_⟩
  · rw [← hdeclared]
    simp [roster]
  · rw [← hdeclared, roster, List.getElem?_mapIdx, List.getElem?_map] at hk
    obtain ⟨entry, hentry, heq⟩ := Option.map_eq_some_iff.1 hk
    obtain ⟨var, hvar, rfl⟩ := Option.map_eq_some_iff.1 hentry
    obtain ⟨rfl, hrest⟩ := Prod.mk.inj heq
    obtain ⟨rfl, rfl⟩ := Prod.mk.inj hrest
    have hlt : k < storage.vars.length := (List.getElem?_eq_some_iff.1 hvar).1
    have hlength : storage.vars.length ≤ 255 := horderly.length_le
    have hget : storage.get k = var := by simp [get, hvar]
    have haddress : (storage.get k).address.toNat = 255 - k := by
      rw [horderly.address k hlt, UInt8.toNat_ofNat']
      omega
    refine ⟨rfl, by rw [hget], by rw [hget], haddress, ?_⟩
    rw [haddress]
    omega
  · exact horderly.name_inj hi hj hname hscope

/-- A name declared twice, a register that is taken, a variable in its own way, and a move. -/
theorem owners_match_records_refused :
    let requests : List Request := [.declare "x" .global 10, .declare "x" .global 10,
      .declare "x" (.function 0) 254, .declare "y" .global 20, .bind 0 1 true, .bind 1 1 true,
      .bind 0 2 false, .markModified 0, .move (.load 0 3 true), .move .scratch, .move (.reserve 3),
      .bind 1 0 false]
    let storage := (serve requests empty).1
    AllInRange requests empty ∧ (serve requests empty).2 = [(0, "x", .global), (1, "y", .global)] ∧
      (storage.get 1).address.toNat = 254 ∧ (storage.get 0).register = none ∧
      (storage.get 1).register = some 0 ∧ storage.owner 0 = some (.variable 1) := by
  intro requests storage
  have hin : AllInRange requests empty := by decide +kernel
  have hdeclared : (serve requests empty).2 = [(0, "x", .global), (1, "y", .global)] := by
    decide +kernel
  have hregister : (storage.get 1).register = some 0 := by decide +kernel
  obtain ⟨hagrees, -, hslots, -⟩ := owners_match_records requests hin
  obtain ⟨-, -, -, haddress, -⟩ := hslots 1 1 "y" .global (by rw [hdeclared]; rfl)
  exact ⟨hin, hdeclared, haddress, by decide +kernel, hregister, (hagrees 1 0).1 hregister⟩

end ByteBasic.Storage
