import ByteBasic.Proofs.Storage.Ownership
import Mathlib.Data.List.FinRange

/-!
# Which register is chosen

A statement asks for registers several times and counts on keeping what it was given before. `pick`
goes over the owners twice: a free register is taken before any variable is evicted, and only a
variable that may lose its register is evicted. `Lowest` says which of several registers it is.

Requests are many, and most of them change the tables; but a pinned register, one that is held by a
value of the statement or by a variable that may not be evicted, is `Untouched` by them: it has the
same owner as before, and its variable still records it. Only a few requests may take it
(`Request.MayTake`).

**Theorem (`registers_are_picked_in_order`).** What is picked is the lowest free register from the
start, and nothing else happens; or there is none, and it is the lowest register from the start whose
variable may lose it, which is then written back if it is modified and loses its register, and nothing
else happens. No request takes a pinned register but those that are meant to.
-/

namespace ByteBasic.Storage

variable {storage before middle after : Storage} {id : VarId} {register other : Register}

/-! ## The lowest register -/

/-- The lowest register from a number on of which something holds. -/
structure Lowest (wanted : Register → Prop) (start : Nat) (register : Register) : Prop where
  start_le : start ≤ register.val
  holds : wanted register
  least : ∀ lower < register, start ≤ lower.val → ¬ wanted lower

def Evictable (storage : Storage) (register : Register) (id : VarId) : Prop :=
  storage.owner register = some (.variable id) ∧ (storage.get id).clearable = true

theorem pairwise_registersFrom (start : Nat) : (registersFrom start).Pairwise (· < ·) :=
  (List.pairwise_lt_finRange 16).filter _

/-- What is lower than a register is looked at before it. -/
theorem mem_of_lt {start : Nat} {earlier later : List Register} {lower : Register}
    (h : registersFrom start = earlier ++ register :: later) (hstart : start ≤ lower.val)
    (hlt : lower < register) : lower ∈ earlier := by
  have hsorted := pairwise_registersFrom start
  have hmem : lower ∈ registersFrom start := mem_registersFrom.2 hstart
  rw [h] at hsorted hmem
  rcases List.mem_append.1 hmem with hearlier | hmem
  · exact hearlier
  · exfalso
    rcases List.mem_cons.1 hmem with rfl | hlater
    · exact absurd hlt (lt_irrefl _)
    · exact lt_asymm hlt
        (List.rel_of_pairwise_cons (List.pairwise_append.1 hsorted).2.1 hlater)

theorem lowest_of_freeFrom? {start : Nat} (h : storage.freeFrom? start = some register) :
    Lowest (fun r => storage.owner r = none) start register := by
  obtain ⟨hfree, earlier, later, hsplit, hheld⟩ := List.find?_eq_some_iff_append.1 h
  have hmem : register ∈ registersFrom start := by simp [hsplit]
  refine ⟨mem_registersFrom.1 hmem, by simpa using hfree, fun lower hlt hstart => ?_⟩
  have hlower := hheld lower (mem_of_lt hsplit hstart hlt)
  exact Option.isSome_iff_ne_none.1 (by simpa using hlower)

theorem evictable?_eq_none (h : storage.evictable? register = none) (id : VarId) :
    ¬ storage.Evictable register id := by
  rintro ⟨howner, hclear⟩
  simp [evictable?, howner, hclear] at h

theorem lowest_of_evictableFrom? {start : Nat}
    (h : storage.evictableFrom? start = some (register, id)) :
    Lowest (fun r => ∃ id, storage.Evictable r id) start register ∧
      storage.Evictable register id := by
  obtain ⟨hstart, hevictable⟩ := evictableFrom?_eq_some h
  obtain ⟨earlier, r, later, hsplit, hfound, hkept⟩ := List.findSome?_eq_some_iff.1 h
  obtain rfl : r = register := by
    obtain ⟨_, _, heq⟩ := Option.map_eq_some_iff.1 hfound
    exact (Prod.mk.inj heq).1
  refine ⟨⟨hstart, ⟨id, hevictable⟩, fun lower hlt hlower => ?_⟩, hevictable⟩
  have hnone := hkept lower (mem_of_lt hsplit hlower hlt)
  rintro ⟨j, hj⟩
  exact evictable?_eq_none (Option.map_eq_none_iff.1 hnone) j hj

/-- Picking a register comes to the lowest free one, or to the lowest one whose variable may lose
it. -/
theorem pick_lowest (ha : storage.Agrees) {start : Nat}
    (h : ((pick start).run storage).result = .ok register) :
    Lowest (fun r => storage.owner r = none) start register ∧
        (pick start).run storage = ⟨.ok register, storage, []⟩ ∨
      (∀ r : Register, start ≤ r.val → storage.owner r ≠ none) ∧ ∃ id note,
        Lowest (fun r => ∃ id, storage.Evictable r id) start register ∧
        storage.Evictable register id ∧ (pick start).run storage =
          ⟨.ok register, storage.released id register, .note note :: storage.writeBackCode id⟩ := by
  cases hf : storage.freeFrom? start with
  | some r =>
    have hrun : (pick start).run storage = ⟨.ok r, storage, []⟩ := by simp [pick, hf]
    obtain rfl : r = register := by
      rw [hrun] at h
      exact Except.ok.inj h
    exact .inl ⟨lowest_of_freeFrom? hf, hrun⟩
  | none =>
    -- No register from there on is free, so one has to be taken from a variable.
    have hheld : ∀ r : Register, start ≤ r.val → storage.owner r ≠ none := fun r hstart => by
      simpa using List.find?_eq_none.1 hf r (mem_registersFrom.2 hstart)
    cases he : storage.evictableFrom? start with
    | none =>
      have hrun : (pick start).run storage = ⟨.error .exhausted, storage, []⟩ := by
        simp [pick, hf, he]
      rw [hrun] at h
      cases h
    | some found =>
      obtain ⟨r, id⟩ := found
      obtain ⟨hlowest, hevictable⟩ := lowest_of_evictableFrom? he
      have hrelease := run_release ((ha id r).2 hevictable.1)
      have hrun : (pick start).run storage = ⟨.ok r, storage.released id r, .note ⟨.trace,
          "evicting " ++ (storage.get id).name ++ " from r" ++ Hex.numeral 1 r.val⟩ ::
            storage.writeBackCode id⟩ := by
        simp only [pick, Action.run_bind, Action.run_get, hf, he, Action.run_put,
          Outcome.andThen_ok, hrelease, Action.run_pure, List.append_nil, List.nil_append,
          List.singleton_append]
      obtain rfl : r = register := by
        rw [hrun] at h
        exact Except.ok.inj h
      exact .inr ⟨hheld, id, _, hlowest, hevictable, hrun⟩

/-- A variable is written back if it is modified. -/
theorem code_writeBackCode (hr : (storage.get id).register = some register) :
    code (storage.writeBackCode id) =
      if (storage.get id).modified then [.store register.byte (storage.get id).address] else [] := by
  unfold writeBackCode
  rw [hr]
  cases (storage.get id).modified <;> rfl

/-! ## Registers that are not touched -/

/-- The register has the same owner as before, and a variable that owns it still records it. -/
structure Untouched (register : Register) (before after : Storage) : Prop where
  owner : after.owner register = before.owner register
  record : ∀ id, before.owner register = some (.variable id) →
    (after.get id).register = (before.get id).register

namespace Untouched

theorem refl (register : Register) (storage : Storage) : Untouched register storage storage :=
  ⟨rfl, fun _ _ => rfl⟩

theorem trans (h₁ : Untouched register before middle) (h₂ : Untouched register middle after) :
    Untouched register before after where
  owner := h₂.owner.trans h₁.owner
  record id hid := by rw [h₂.record id (by rw [h₁.owner, hid]), h₁.record id hid]

theorem update (storage : Storage) (id : VarId) {f : Variable → Variable}
    (hf : ∀ var, (f var).register = var.register) :
    Untouched register storage (storage.update id f) :=
  ⟨rfl, fun j _ => field_update Variable.register storage id j hf⟩

theorem setOwner (storage : Storage) (h : other ≠ register) (owner : Option Owner) :
    Untouched register storage (storage.setOwner other owner) :=
  ⟨owner_setOwner_of_ne storage h owner, fun _ _ => rfl⟩

theorem saved (storage : Storage) (id : VarId) :
    Untouched register storage (storage.saved id) :=
  ⟨owner_saved storage id register, fun j _ => register_saved storage id j⟩

theorem released (ha : storage.Agrees) (hr : (storage.get id).register = some other)
    (h : other ≠ register) : Untouched register storage (storage.released id other) where
  owner := owner_released_of_ne h
  record j hj := by
    have hne : j ≠ id := by
      rintro rfl
      rw [← ha j register, hr] at hj
      exact h (Option.some.inj hj)
    rw [get_released_of_ne hne]

theorem vacated (ha : storage.Agrees) (h : storage.owner register ≠ some (.variable id)) :
    Untouched register storage (storage.vacated id) := by
  unfold Storage.vacated
  split
  · exact .refl register storage
  · next previous hr =>
    refine .released ha hr ?_
    rintro rfl
    exact h ((ha id previous).1 hr)

theorem bound (hne : other ≠ register) (h : storage.owner register ≠ some (.variable id)) :
    Untouched register storage (storage.bound id other) where
  owner := owner_setOwner_of_ne _ hne _
  record j hj := by
    have hij : id ≠ j := by
      rintro rfl
      exact h hj
    unfold Storage.bound
    rw [get_setOwner, get_update_of_ne storage hij]

end Untouched

theorem ne_of_free (hheld : storage.owner register ≠ none) (free : storage.owner other = none) :
    other ≠ register := by
  rintro rfl
  exact hheld free

/-- Another variable gives up what it has for a free register. -/
theorem untouched_rebound (ha : storage.Agrees) (hheld : storage.owner register ≠ none)
    (h : storage.owner register ≠ some (.variable id)) (free : storage.owner other = none) :
    Untouched register storage ((storage.vacated id).bound id other) := by
  have hvacated := Untouched.vacated ha h
  exact hvacated.trans (.bound (ne_of_free hheld free) (by rw [hvacated.owner]; exact h))

/-! ## Requests -/

theorem untouched_declare (storage : Storage) (name : String) (scope : Scope) (codeSize : Nat) :
    Untouched register storage ((declare name scope codeSize).run storage).state := by
  cases hfind : storage.find? name scope with
  | some id =>
    have hrun : (declare name scope codeSize).run storage =
        ⟨.error (.duplicate name), storage, []⟩ := by
      simp [declare, hfind]
    rw [hrun]
    exact .refl register storage
  | none =>
    rcases @run_declare _ _ _ codeSize hfind with ⟨note, -, hrun⟩ | hrun
    · rw [hrun]
      exact ⟨rfl, fun id _ => register_extended storage name scope id⟩
    · rw [hrun]
      exact .refl register storage

section Requests

variable (ha : storage.Agrees) (hheld : storage.owner register ≠ none)
include ha hheld

theorem untouched_bind (h : storage.owner register ≠ some (.variable id)) (overwrite : Bool) :
    Untouched register storage ((Storage.bind id other overwrite).run storage).state := by
  rcases state_bind ha id other overwrite with hstate | ⟨free, hstate⟩
  · rw [hstate]
    exact .update storage id fun _ => rfl
  · rw [hstate]
    exact untouched_rebound ha hheld h free

theorem untouched_load (h : storage.owner register ≠ some (.variable id)) (keep : Bool) :
    Untouched register storage ((load id other keep).run storage).state := by
  rcases register_cases ha id other with hr | ⟨hne, free⟩ | ⟨hne, owner, howner, hother⟩
  · rw [run_load_here hr]
    exact .refl register storage
  · cases keep with
    | false =>
      rw [run_load_copy hne free]
      exact .saved storage id
    | true =>
      rw [run_load_keep hne free]
      exact untouched_rebound ha hheld h free
  · rw [run_load_held hne howner hother]
    exact .refl register storage

omit hheld in
theorem untouched_release (h : storage.owner register ≠ some (.variable id)) :
    Untouched register storage ((release id other).run storage).state := by
  by_cases hr : (storage.get id).register = some other
  · rw [run_release hr]
    refine .released ha hr ?_
    rintro rfl
    exact h ((ha id other).1 hr)
  · rw [run_release_other hr]
    exact .refl register storage

end Requests

section Pinned

variable (ha : storage.Agrees) (hpin : storage.Pinned register)
include hpin

theorem Pinned.held : storage.owner register ≠ none :=
  fun hfree => not_pinned_of_free hfree hpin

include ha

/-- Picking evicts no variable from a pinned register, and does not give that register away. -/
theorem untouched_pick (start : Nat) :
    Untouched register storage ((pick start).run storage).state ∧
      ((pick start).run storage).result ≠ .ok register := by
  have hpicked := picked ha start
  generalize (pick start).run storage = outcome at hpicked
  cases hpicked with
  | free other hstart hfree =>
    exact ⟨.refl register storage, fun heq => ne_of_free hpin.held hfree (Except.ok.inj heq)⟩
  | evicted other id note hstart howner hclear =>
    have hne : other ≠ register := by
      rintro rfl
      exact not_pinned_of_clearable howner hclear hpin
    exact ⟨.released ha ((ha id other).2 howner) hne, fun heq => hne (Except.ok.inj heq)⟩
  | exhausted hheld => exact ⟨.refl register storage, fun heq => by cases heq⟩

theorem untouched_scratch : Untouched register storage (scratch.run storage).state := by
  obtain ⟨hpick, hne⟩ := untouched_pick ha hpin 1
  rw [scratch, Action.run_bind]
  rcases hrun : (pick 1).run storage with ⟨error | other, state, output⟩
  · rw [hrun] at hpick
    exact hpick
  · rw [hrun] at hpick hne
    have hother : other ≠ register := fun heq => hne (by rw [heq])
    exact hpick.trans (.setOwner state hother _)

end Pinned

theorem untouched_reserve (ha : storage.Agrees)
    (h : other = register → storage.owner register = some .temporary) :
    Untouched register storage ((reserve other).run storage).state := by
  by_cases heq : other = register
  · subst heq
    have howner := h rfl
    rw [run_reserve_other fun id => by rw [howner]; exact fun hno => by cases hno]
    exact ⟨by rw [owner_setOwner_self, howner], fun _ _ => rfl⟩
  · by_cases hvariable : ∃ id, storage.owner other = some (.variable id)
    · obtain ⟨id, howner⟩ := hvariable
      rw [run_reserve_variable ha howner]
      exact (Untouched.released ha ((ha id other).2 howner) heq).trans (.setOwner _ heq _)
    · rw [run_reserve_other fun id howner => hvariable ⟨id, howner⟩]
      exact .setOwner storage heq _

theorem untouched_endStatement (h : storage.owner register ≠ some .temporary) :
    Untouched register storage (endStatement.run storage).state := by
  unfold endStatement
  rw [Action.run_modify]
  generalize List.finRange 16 = registers
  induction registers generalizing storage with
  | nil => exact .refl register storage
  | cons other rest ih =>
    have hfirst : Untouched register storage (endStatementAt other storage) := by
      unfold endStatementAt
      rcases howner : storage.owner other with _ | ⟨id⟩ | _
      · exact .refl register storage
      · exact .update storage id fun _ => rfl
      · refine .setOwner storage ?_ none
        rintro rfl
        exact h howner
    exact hfirst.trans (ih (by rw [hfirst.owner]; exact h))

theorem state_discard {α : Type} (action : StorageM α) (storage : Storage) :
    ((do let _ ← action; return () : StorageM Unit).run storage).state =
      (action.run storage).state := by
  rw [Action.run_bind]
  rcases action.run storage with ⟨_ | _, _, _⟩ <;> rfl

/-- The requests that may take a register from an owner who holds it for the statement: those about
the variable itself, those that reserve its register, the end of the statement for a value, and giving
up all registers. -/
def Request.MayTake (owner : Owner) (register : Register) : Request → Prop
  | .bind id _ _ => owner = .variable id
  | .move (.load id _ _) => owner = .variable id
  | .move (.release id _) => owner = .variable id
  | .move (.reserve other) => other = register ∧ owner ≠ .temporary
  | .move .endStatement => owner = .temporary
  | .move .flush => True
  | _ => False

/-- Whatever else is asked, a pinned register stays with its owner. -/
theorem untouched_request (ha : storage.Agrees) (hpin : storage.Pinned register) {owner : Owner}
    (howner : storage.owner register = some owner) (request : Request)
    (hspare : ¬ request.MayTake owner register) :
    Untouched register storage (request.action.run storage).state := by
  have hheld := hpin.held
  have hvariable : ∀ id, owner ≠ .variable id → storage.owner register ≠ some (.variable id) :=
    fun id hne => by rw [howner]; exact fun heq => hne (Option.some.inj heq)
  cases request with
  | declare name scope codeSize =>
    rw [Request.action, state_discard]
    exact untouched_declare storage name scope codeSize
  | bind id other overwrite => exact untouched_bind ha hheld (hvariable id hspare) overwrite
  | markModified id => exact .update storage id fun _ => rfl
  | move operation =>
    cases operation with
    | load id other keep => exact untouched_load ha hheld (hvariable id hspare) keep
    | writeBack id =>
      show Untouched register storage ((writeBack id).run storage).state
      rw [run_writeBack_saved]
      exact .saved storage id
    | allowEviction id => exact .update storage id fun _ => rfl
    | release id other => exact untouched_release ha (hvariable id hspare)
    | pick start =>
      rw [Request.action, Operation.action, state_discard]
      exact (untouched_pick ha hpin start).1
    | scratch =>
      rw [Request.action, Operation.action, state_discard]
      exact untouched_scratch ha hpin
    | reserve other =>
      -- A register is only reserved against its owner if the request names it.
      refine untouched_reserve ha fun heq => ?_
      rw [howner]
      by_contra hne
      exact hspare ⟨heq, fun h => hne (by rw [h])⟩
    | endStatement =>
      exact untouched_endStatement (by rw [howner]; exact fun heq => hspare (Option.some.inj heq))
    | flush => exact absurd trivial hspare

/-- **Registers are picked in order, and pinned ones stay.** Whenever the tables agree, a register
that is picked from a number on is free afterwards. If there was a free one, it is the lowest of them
and nothing is put out or changed; otherwise it is the lowest whose variable may lose it, that variable
and no other loses its register, and it is stored to its slot if it was modified. And a register that
is held by a value, or by a variable that may not be evicted, stays with its owner whatever is asked,
unless the request may take it. -/
theorem registers_are_picked_in_order (ha : storage.Agrees) :
    (∀ start register, ((pick start).run storage).result = .ok register →
      let outcome := (pick start).run storage
      start ≤ register.val ∧ outcome.state.owner register = none ∧
      ((∃ r : Register, start ≤ r.val ∧ storage.owner r = none) →
        Lowest (fun r => storage.owner r = none) start register ∧
          outcome.state = storage ∧ outcome.output = []) ∧
      ((∀ r : Register, start ≤ r.val → storage.owner r ≠ none) →
        Lowest (fun r => ∃ id, storage.Evictable r id) start register ∧
        ∃ id, storage.Evictable register id ∧ (outcome.state.get id).register = none ∧
          (∀ j, j ≠ id → outcome.state.get j = storage.get j) ∧
          (∀ r, r ≠ register → outcome.state.owner r = storage.owner r) ∧
          code outcome.output = if (storage.get id).modified then
            [.store register.byte (storage.get id).address] else [])) ∧
    ∀ (request : Request) (register : Register) (owner : Owner),
      storage.owner register = some owner → storage.Pinned register →
      ¬ request.MayTake owner register →
      (request.action.run storage).state.owner register = some owner ∧
        ∀ id, owner = .variable id →
          ((request.action.run storage).state.get id).register = some register := by
  refine ⟨fun start register hok => ?_, fun request register owner howner hpin hspare => ?_⟩
  · rcases pick_lowest ha hok with ⟨hlowest, hrun⟩ | ⟨hheld, id, note, hlowest, hevictable, hrun⟩
    · rw [hrun]
      refine ⟨hlowest.start_le, hlowest.holds, fun _ => ⟨hlowest, rfl, rfl⟩, fun hheld => ?_⟩
      exact absurd hlowest.holds (hheld register hlowest.start_le)
    · have hr := (ha id register).2 hevictable.1
      rw [hrun]
      refine ⟨hlowest.start_le, owner_released_self storage id register, ?_, fun _ =>
        ⟨hlowest, id, hevictable, ?_, fun j hj => get_released_of_ne hj register,
          fun r hne => owner_released_of_ne (Ne.symm hne), code_writeBackCode hr⟩⟩
      · rintro ⟨r, hstart, hfree⟩
        exact absurd hfree (hheld r hstart)
      · rw [get_released_self hr]
  · have huntouched := untouched_request ha hpin howner request hspare
    refine ⟨huntouched.owner.trans howner, ?_⟩
    rintro id rfl
    rw [huntouched.record id howner, ha id register]
    exact howner

/-- Only `r0` is free: asked for, it is picked; otherwise the variable in `r2` is evicted and not the
one in `r1`, which may not lose it. -/
theorem registers_are_picked_in_order_evicting :
    let requests : List Request := [.declare "x" .global 10, .declare "y" .global 10, .bind 0 2 true,
      .markModified 0, .move (.allowEviction 0), .bind 1 1 true] ++
        ((List.finRange 16).drop 3).map fun register => .move (.reserve register)
    let storage := (serve requests empty).1
    storage.Agrees ∧ ((pick 0).run storage).result = .ok 0 ∧ ((pick 0).run storage).output = [] ∧
      ((pick 1).run storage).result = .ok 2 ∧
      code ((pick 1).run storage).output = [.store 2 255] ∧
      ((Request.move .scratch).action.run storage).state.owner 1 = some (.variable 1) := by
  intro requests storage
  have hin : AllInRange requests empty := by decide +kernel
  have ha : storage.Agrees := (orderly_empty.serve requests hin).1.agrees
  obtain ⟨hpick, hspare⟩ := registers_are_picked_in_order ha
  have hzero : ((pick 0).run storage).result = .ok 0 := by decide +kernel
  have htwo : ((pick 1).run storage).result = .ok 2 := by decide +kernel
  obtain ⟨-, -, hfree, -⟩ := hpick 0 0 hzero
  obtain ⟨-, -, -, hevicted⟩ := hpick 1 2 htwo
  obtain ⟨-, id, ⟨howner, -⟩, -, -, -, hcode⟩ := hevicted (by decide +kernel)
  obtain rfl : id = 0 := by
    have hx : storage.owner 2 = some (.variable 0) := by decide +kernel
    rw [hx] at howner
    exact (Owner.variable.inj (Option.some.inj howner)).symm
  refine ⟨ha, hzero, (hfree ⟨0, Nat.le_refl _, by decide +kernel⟩).2.2, htwo, ?_, ?_⟩
  · rw [hcode]
    decide +kernel
  · refine (hspare (.move .scratch) 1 (.variable 1) (by decide +kernel) ?_ id).1
    exact .inr ⟨1, by decide +kernel, by decide +kernel⟩

end ByteBasic.Storage
