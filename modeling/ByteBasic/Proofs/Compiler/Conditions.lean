import ByteBasic.Proofs.Compiler.Assignments

/-!
# Conditions

A condition is compiled where nothing is held in a register: everything has been written back, because
control goes elsewhere. It holds the registers that its sides name (`Storage.HeldFor`), brings each side
into a register that is its own or that nobody holds (`Build.Brings`), moves one of them to `r0` if
neither is there, and puts out one comparison (`Build.compare_eq`).

All that this code does is to fill registers, and afterwards the comparison comes out as the condition
does on what the sides held before (`Build.Sided`), whatever sorts of operand they are. The reason is
that bringing the second side leaves the first where it is (`Storage.values_of_suits`): the two
registers are different, unless the source names the same one twice.

Nothing of this can fail but what an operand refers to, and the comparison of two numbers.
-/

namespace ByteBasic

/-- Code that only fills registers changes nothing else. -/
theorem Core.executeAll_of_fills {code : List Instruction}
    (h : ∀ i ∈ code, ∃ r, Storage.Fills r i) (mode : RotateMode) (core : Core) :
    ∃ registers, core.executeAll mode code = { core with registers := registers } := by
  induction code generalizing core with
  | nil => exact ⟨core.registers, rfl⟩
  | cons i rest ih =>
    obtain ⟨⟨r, hfills⟩, hrest⟩ := List.forall_mem_cons.1 h
    obtain ⟨value, hvalue⟩ := hfills mode core
    obtain ⟨registers, hregisters⟩ := ih hrest (core.setReg r.byte value)
    exact ⟨registers, by rw [executeAll_cons, hvalue, hregisters]; rfl⟩

namespace Storage

variable {storage : Storage} {register : Register} {referents : List Referent}
variable {left right : Referent} {first second : Register}

/-- No variable is held in a register. -/
def Unbound (storage : Storage) : Prop :=
  ∀ id, (storage.get id).register = none

/-- The registers that the referents name are held, each for a value, and no others. -/
def HeldFor (referents : List Referent) (storage : Storage) : Prop :=
  ∀ r, storage.owner r = if Referent.register r ∈ referents then some .temporary else none

theorem Vacant.heldFor (h : storage.Vacant) : storage.HeldFor [] :=
  fun r => h r

namespace HeldFor

theorem not_variable (h : storage.HeldFor referents) (r : Register) (id : VarId) :
    storage.owner r ≠ some (.variable id) := by
  rw [h r]
  split <;> simp

theorem unbound (h : storage.HeldFor referents) (ha : storage.Agrees) : storage.Unbound := by
  intro id
  cases hr : (storage.get id).register with
  | none => rfl
  | some r => exact absurd ((ha id r).1 hr) (h.not_variable r id)

theorem free (h : storage.HeldFor referents) (hr : Referent.register register ∉ referents) :
    storage.owner register = none := by
  rw [h register, if_neg hr]

theorem named (h : storage.HeldFor referents) (hr : Referent.register register ∈ referents) :
    storage.owner register = some .temporary := by
  rw [h register, if_pos hr]

theorem hold (h : storage.HeldFor referents) (register : Register) :
    (storage.setOwner register (some .temporary)).HeldFor (.register register :: referents) := by
  intro r
  by_cases hr : register = r
  · subst hr
    rw [owner_setOwner_self, if_pos (List.mem_cons_self ..)]
  · have hne : Referent.register r ≠ .register register := fun heq => hr (Referent.register.inj heq).symm
    rw [owner_setOwner_of_ne _ hr, h r]
    simp only [List.mem_cons, hne, false_or]

theorem cons (h : storage.HeldFor referents) {referent : Referent}
    (hcell : ∀ r, referent ≠ .register r) : storage.HeldFor (referent :: referents) := by
  intro r
  rw [h r]
  simp only [List.mem_cons, (hcell r).symm, false_or]

/-- A register other than `r0` can be had, and nothing has to give it up. -/
theorem pick (h : storage.HeldFor referents) (room : referents.length < 15) :
    ∃ register, (Storage.pick 1).run storage = ⟨.ok register, storage, []⟩ ∧ register ≠ 0 ∧
      storage.owner register = none := by
  obtain ⟨r, hr, hmem⟩ := exists_unpinned (Nat.lt_of_le_of_lt
    (Build.length_namedRegisters referents) room)
  have hfree : storage.owner r = none := h.free fun hnamed =>
    hmem (List.mem_filterMap.2 ⟨.register r, hnamed, rfl⟩)
  cases hfound : storage.freeFrom? 1 with
  | none =>
    have hheld := List.find?_eq_none.1 hfound r (mem_registersFrom.2 hr)
    rw [hfree] at hheld
    simp at hheld
  | some register =>
    obtain ⟨hstart, howner⟩ := freeFrom?_eq_some hfound
    refine ⟨register, by simp [Storage.pick, hfound], ?_, howner⟩
    rintro rfl
    simp at hstart

end HeldFor

/-- A register for a referent: its own if it is one, and otherwise one that nobody holds. -/
def Suits (storage : Storage) (referent : Referent) (register : Register) : Prop :=
  match referent with
  | .register r => register = r
  | _ => storage.owner register = none

theorem Suits.cases {referent : Referent} (h : storage.Suits referent register) :
    referent = .register register ∨ storage.owner register = none := by
  cases referent with
  | register r => exact .inl (congrArg Referent.register (Eq.symm h))
  | _ => exact .inr h

/-- A register that is filled changes the value of no referent but itself. -/
theorem value_setReg (unbound : storage.Unbound) {referent : Referent} {core : Core} {value : UInt8}
    (hne : referent ≠ .register register) :
    referent.value storage (core.setReg register.byte value) = referent.value storage core := by
  rcases referent with ⟨id⟩ | ⟨r⟩ | _ | _ | _
  · simp only [Referent.value, value_of_unbound (unbound id), Core.mem_setReg]
  · exact Core.reg_setReg_of_ne core (fun heq => hne (congrArg _ heq.symm)) value
  all_goals rfl

/-- Two referents that are brought into registers one after the other are both there, if the registers are
different or the source names the same one twice. -/
theorem values_of_suits (held : storage.HeldFor [left, right]) (unbound : storage.Unbound)
    (hfirst : storage.Suits left first) (hsecond : storage.Suits right second)
    (distinct : first = second → right = .register second) (core : Core) :
    let middle := core.setReg first.byte (left.value storage core)
    let last := middle.setReg second.byte (right.value storage middle)
    last.reg first.byte = left.value storage core ∧
      last.reg second.byte = right.value storage core := by
  intro middle last
  have named : ∀ {r}, right = .register r → storage.owner r = some .temporary :=
    fun h => held.named (by simp [h])
  -- A register that the right side names is not filled with anything else before.
  have hright : right.value storage middle = right.value storage core := by
    by_cases hsame : right = .register first
    · rcases hfirst.cases with rfl | hfree
      · exact congrArg (right.value storage) (Core.setReg_reg core first)
      · rw [named hsame] at hfree
        cases hfree
    · exact value_setReg unbound hsame
  refine ⟨?_, (Core.reg_setReg_self _ _ _).trans hright⟩
  by_cases heq : first = second
  · obtain rfl := heq
    have hnamed := distinct rfl
    rcases hfirst.cases with rfl | hfree
    · refine (Core.reg_setReg_self _ _ _).trans (hright.trans ?_)
      rw [hnamed]
    · rw [named hnamed] at hfree
      cases hfree
  · exact (Core.reg_setReg_of_ne _ (Ne.symm heq) _).trans (Core.reg_setReg_self _ _ _)

end Storage

namespace Build

open Storage (Serves Fills HeldFor Suits)

variable {number : Nat} {state before after : BuildState} {referents : List Referent}
variable {left right side : Referent} {first register : Register} {comparison : Comparison}

/-! ## Holding what the sides name -/

theorem gives_reserveNamed (hstate : state.Ranged number) (held : state.storage.HeldFor referents)
    (side : Referent) :
    Gives number (reserveNamed side) state fun _ after items =>
      items = [] ∧ after.storage.vars = state.storage.vars ∧
        Advances True (namedRegisters [side]) state [] after ∧
        after.storage.HeldFor (side :: referents) := by
  cases side with
  | register r =>
    have hserves := Storage.serves_hold hstate.tidy (held.not_variable r)
    refine (gives_advance hstate (Storage.run_reserve_other (held.not_variable r)) hserves).imp
      fun _ after items h => ?_
    obtain ⟨-, hstorage, rfl, hadv⟩ := h
    refine ⟨rfl, by rw [hstorage]; rfl, hadv, ?_⟩
    rw [hstorage]
    exact held.hold r
  | _ => exact .pure ⟨rfl, rfl, .refl hstate, held.cons fun r => by simp⟩

theorem gives_reserveSides (hstate : state.Ranged number) (vacant : state.storage.Vacant)
    (left right : Referent) :
    Gives number ([left, right].forM reserveNamed) state fun _ after items =>
      items = [] ∧ after.storage.vars = state.storage.vars ∧
        Advances True (namedRegisters [left] ++ namedRegisters [right]) state [] after ∧
        after.storage.HeldFor [left, right] := by
  refine (gives_reserveNamed hstate vacant.heldFor left).bind fun _ s items h => ?_
  obtain ⟨rfl, hvars, hadv, held⟩ := h
  refine (gives_reserveNamed (hadv.ranged hstate) held right).bind fun _ after items h => ?_
  obtain ⟨rfl, hvars', hadv', held'⟩ := h
  refine .pure ⟨rfl, hvars'.trans hvars, (hadv.trans hadv').weaken (fun _ => ⟨trivial, trivial⟩)
    fun _ hr => hr, fun r => ?_⟩
  have hswap : Referent.register r ∈ [right, left] ↔ Referent.register r ∈ [left, right] :=
    (List.Perm.swap left right []).mem_iff
  rw [held' r, if_congr hswap rfl rfl]

/-! ## Bringing a side into a register -/

/-- What bringing a side into a register comes to: the register is filled with its value, and nobody
gets or loses a register. -/
def Brings (side : Referent) (register : Register) (before after : BuildState)
    (items : List (Scope × Item)) : Prop :=
  after.storage = before.storage ∧ ∃ code, items = straight before.current code ∧
    Advances side.Portless [register] before code after ∧ (∀ i ∈ code, ∃ r, Fills r i) ∧
    ∀ mode (core : Core), core.executeAll mode code =
      core.setReg register.byte (side.value before.storage core)

theorem brings_register (hstate : state.Ranged number) (register : Register) :
    Brings (.register register) register state state [] :=
  ⟨rfl, [], rfl, .refl hstate, fun i hi => (by cases hi),
    fun _ core => (Core.setReg_reg core register).symm⟩

theorem gives_fill {calm : Prop} (hstate : state.Ranged number)
    (free : state.storage.owner register = none) {i : Instruction} (fits : i.Fits ∧ i.Steady)
    (hcalm : calm → Storage.Calm state.storage i) (hfills : Fills register i) :
    Gives number (instruct i) state fun _ after items =>
      after.storage = state.storage ∧ items = straight state.current [i] ∧
        Advances calm [register] state [i] after := by
  refine (gives_instruct hstate fits.1 fits.2.plain).imp fun _ after items h => ?_
  obtain ⟨halike, hstorage, rfl⟩ := h
  have hnothing : Serves True [register] state.storage [] state.storage :=
    (Serves.refl hstate.tidy).weaken (fun h => h) fun _ hr => (by cases hr)
  have hfilled := hnothing.fill (List.mem_singleton_self _) (Storage.not_pinned_of_free free)
    (fun j => by rw [free]; simp) hfills fits hcalm
  refine ⟨hstorage, rfl, halike, ?_⟩
  rw [hstorage]
  exact hfilled.weaken (fun h => ⟨trivial, h⟩) fun _ hr => hr

theorem gives_fetch (hstate : state.Ranged number) (free : state.storage.owner register = none)
    {i : Instruction} (hfetch : side.Fetches register i) :
    Gives number (instruct i) state fun _ after items => Brings side register state after items := by
  refine (gives_fill hstate free ⟨hfetch.fits, hfetch.steady⟩ (fun h => hfetch.calm h _)
    hfetch.fills).imp fun _ after items h => ?_
  obtain ⟨hstorage, rfl, hadv⟩ := h
  refine ⟨hstorage, [i], rfl, hadv, fun j hj => ?_, fun mode core =>
    hfetch.effect mode state.storage core⟩
  rw [List.mem_singleton.1 hj]
  exact ⟨register, hfetch.fills⟩

theorem gives_copyInto (hstate : state.Ranged number) (unbound : state.storage.Unbound)
    (hin : side.InRange state.storage) (hcell : ∀ r, side ≠ .register r)
    (free : state.storage.owner register = none) :
    Gives number (copyInto side register) state fun _ after items =>
      Brings side register state after items := by
  rcases side with ⟨id⟩ | ⟨r⟩ | ⟨address⟩ | ⟨address⟩ | ⟨value⟩
  · -- The variable is in its slot, so there is nothing to write back first.
    have hcode : Storage.code (state.storage.loadCode id register) =
        [.loadMem register.byte (state.storage.get id).address] := by
      rw [Storage.loadCode, Storage.writeBackCode_unbound (unbound id)]
      rfl
    have hsaved : state.storage.saved id = state.storage := by
      simp [Storage.saved, unbound id]
    obtain ⟨hrun, hserves, -⟩ := Storage.copy_serves hstate.tidy hin free
    refine (gives_advance hstate hrun hserves).imp fun _ after items h => ?_
    obtain ⟨-, hstorage, rfl, hadv⟩ := h
    rw [hcode] at hadv ⊢
    refine ⟨hstorage.trans hsaved, _, rfl, hadv.weaken (fun _ => trivial) fun _ hr => hr,
      fun i hi => ?_, fun mode core => ?_⟩
    · rw [List.mem_singleton.1 hi]
      exact ⟨register, fun mode core => ⟨_, rfl⟩⟩
    · rw [Referent.value, Storage.value_of_unbound (unbound id)]
      rfl
  · exact absurd rfl (hcell r)
  · exact gives_fetch hstate free (Referent.fetches_memory address register)
  · exact gives_fetch hstate free (Referent.fetches_port address register)
  · exact gives_fetch hstate free (Referent.fetches_literal value register)

/-- Every operand that is no register can be copied into one other than `r0`. -/
theorem gives_pickCopy (hstate : state.Ranged number) (held : state.storage.HeldFor referents)
    (room : referents.length < 15) (hin : side.InRange state.storage)
    (hcell : ∀ r, side ≠ .register r) :
    Gives number (do
        let register ← storing (Storage.pick 1)
        copyInto side register
        return register) state fun register after items =>
      Brings side register state after items ∧ register ≠ 0 ∧
        state.storage.owner register = none := by
  obtain ⟨register, hrun, hne, free⟩ := held.pick room
  have hnothing : Serves True [] state.storage (Storage.code []) state.storage := .refl hstate.tidy
  refine (gives_advance hstate hrun hnothing).bind fun r s items h => ?_
  obtain ⟨rfl, hstorage, rfl, hadv⟩ := h
  have hunbound : s.storage.Unbound := by
    rw [hstorage]
    exact held.unbound hstate.tidy.agrees
  refine (gives_copyInto (hadv.ranged hstate) hunbound (hadv.inRange hin) hcell
    (by rw [hstorage]; exact free)).bind fun _ after items h => ?_
  obtain ⟨hafter, code, rfl, hadv', hfills, heffect⟩ := h
  rw [hstorage] at heffect
  refine .pure ⟨⟨hafter.trans hstorage, code, ?_, ?_, hfills, heffect⟩, hne, free⟩
  · rw [hadv.alike.current, List.append_nil]
    rfl
  · exact (hadv.trans hadv').weaken (fun h => ⟨trivial, h⟩) fun _ hr => hr

/-! ## The two sides -/

theorem suits_of_free (hcell : ∀ r, side ≠ .register r)
    (free : state.storage.owner register = none) : state.storage.Suits side register := by
  cases side with
  | register r => exact absurd rfl (hcell r)
  | _ => exact free

/-- The left side gets a register. It is not `r0` if that is the right side's. -/
theorem gives_leftRegister (hstate : state.Ranged number) (held : state.storage.HeldFor [left, right])
    (hin : left.InRange state.storage) :
    Gives number (leftRegister left right) state fun first after items =>
      Brings left first state after items ∧ state.storage.Suits left first := by
  by_cases hreg : ∃ r, left = .register r
  · obtain ⟨r, rfl⟩ := hreg
    exact .pure ⟨brings_register hstate r, rfl⟩
  · have hcell : ∀ r, left ≠ .register r := fun r hr => hreg ⟨r, hr⟩
    have hleft : leftRegister left right =
        if right = .register 0 then do
          let register ← storing (Storage.pick 1)
          copyInto left register
          return register
        else do
          copyInto left 0
          return 0 := by
      unfold leftRegister
      split
      · next r => exact absurd rfl (hcell r)
      · rfl
    rw [hleft]
    by_cases hzero : right = .register 0
    · rw [if_pos hzero]
      -- The right side is in `r0`, and has to stay there.
      exact (gives_pickCopy hstate held (by simp) hin hcell).imp
        fun first after items h => ⟨h.1, suits_of_free hcell h.2.2⟩
    · rw [if_neg hzero]
      have free : state.storage.owner 0 = none := held.free (by
        simp [(hcell 0).symm, Ne.symm hzero])
      refine (gives_copyInto hstate (held.unbound hstate.tidy.agrees) hin hcell free).bind
        fun _ after items h => ?_
      refine .pure ⟨?_, suits_of_free hcell free⟩
      rw [List.append_nil]
      exact h

/-- The right side gets a register, which is `r0` unless that is the left side's. -/
theorem gives_rightRegister (hstate : state.Ranged number) (held : state.storage.HeldFor [left, right])
    (hfirst : state.storage.Suits left first) (hin : right.InRange state.storage) :
    Gives number (rightRegister first right) state fun second after items =>
      Brings right second state after items ∧ state.storage.Suits right second ∧
        (first = second → right = .register second) ∧
          (first ≠ 0 → second ≠ 0 → state.storage.owner 0 = none) := by
  have hleft : left = .register 0 → first = 0 := by
    rintro rfl
    exact hfirst
  by_cases hreg : ∃ r, right = .register r
  · -- A register stays where it is.
    obtain ⟨r, rfl⟩ := hreg
    refine .pure ⟨brings_register hstate r, rfl, fun _ => rfl, fun hf hs => held.free ?_⟩
    simp only [List.mem_cons, List.not_mem_nil, or_false, Referent.register.injEq]
    rintro (h | rfl)
    · exact hf (hleft h.symm)
    · exact hs rfl
  · have hcell : ∀ r, right ≠ .register r := fun r hr => hreg ⟨r, hr⟩
    have hright : rightRegister first right =
        if first = 0 then do
          let register ← storing (Storage.pick 1)
          copyInto right register
          return register
        else do
          copyInto right 0
          return 0 := by
      unfold rightRegister
      split
      · next r => exact absurd rfl (hcell r)
      · rfl
    rw [hright]
    by_cases hf : first = 0
    · -- The left side is in `r0`, so the right one gets another register.
      rw [if_pos hf]
      refine (gives_pickCopy hstate held (by simp) hin hcell).imp fun second after items h => ?_
      obtain ⟨hbrings, hne, free⟩ := h
      exact ⟨hbrings, suits_of_free hcell free, fun heq => absurd (heq.symm.trans hf) hne,
        fun h => absurd hf h⟩
    · -- Otherwise `r0` is free, as only the sides hold registers.
      rw [if_neg hf]
      have free : state.storage.owner 0 = none := held.free (by
        simp only [List.mem_cons, List.not_mem_nil, or_false, (hcell 0).symm]
        exact fun h => hf (hleft h.symm))
      refine (gives_copyInto hstate (held.unbound hstate.tidy.agrees) hin hcell free).bind
        fun _ after items h => ?_
      refine .pure ⟨?_, suits_of_free hcell free, fun heq => absurd heq hf, fun _ _ => free⟩
      rw [List.append_nil]
      exact h

/-- Brings the sides of a condition into registers. -/
def gather (left right : Referent) : Build (Register × Register) := do
  [left, right].forM reserveNamed
  let first ← leftRegister left right
  let second ← rightRegister first right
  return (first, second)

/-- What bringing the sides into registers comes to: code that only fills registers, after which the two
registers hold what the sides held before. If neither of them is `r0`, it is free. -/
structure Gathered (left right : Referent) (before after : BuildState) (pair : Register × Register)
    (code : List Instruction) : Prop where
  advances : ∃ used, Advances (left.Portless ∧ right.Portless) used before code after
  unbound : after.storage.Unbound
  fills : ∀ i ∈ code, ∃ r, Fills r i
  free : pair.1 ≠ 0 → pair.2 ≠ 0 → after.storage.owner 0 = none
  first : ∀ mode (core : Core),
    (core.executeAll mode code).reg pair.1.byte = left.value before.storage core
  second : ∀ mode (core : Core),
    (core.executeAll mode code).reg pair.2.byte = right.value before.storage core

theorem gives_gather (hstate : state.Ranged number) (vacant : state.storage.Vacant)
    (hleft : left.InRange state.storage) (hright : right.InRange state.storage) :
    Gives number (gather left right) state fun pair after items =>
      ∃ code, items = straight state.current code ∧ Gathered left right state after pair code := by
  refine (gives_reserveSides hstate vacant left right).bind fun _ s items h => ?_
  obtain ⟨rfl, hvars, hadv, held⟩ := h
  have hranged := hadv.ranged hstate
  have unbound := held.unbound hranged.tidy.agrees
  refine (gives_leftRegister hranged held (hadv.inRange hleft)).bind fun first s₁ items h => ?_
  obtain ⟨⟨hstorage₁, code₁, rfl, hadv₁, hfills₁, heffect₁⟩, hfirst⟩ := h
  have hranged₁ := hadv₁.ranged hranged
  rw [← hstorage₁] at held hfirst unbound
  refine (gives_rightRegister hranged₁ held hfirst (hadv₁.inRange (hadv.inRange hright))).bind
    fun second after items h => ?_
  obtain ⟨⟨hstorage₂, code₂, rfl, hadv₂, hfills₂, heffect₂⟩, hsecond, hdistinct, hzero⟩ := h
  -- The right side is fetched second, and leaves the register of the left one alone.
  have hvalues : ∀ mode (core : Core),
      (core.executeAll mode (code₁ ++ code₂)).reg first.byte = left.value state.storage core ∧
        (core.executeAll mode (code₁ ++ code₂)).reg second.byte =
          right.value state.storage core := by
    intro mode core
    rw [Core.executeAll_append, heffect₂, heffect₁, ← hstorage₁,
      ← Referent.value_congr hvars core left, ← Referent.value_congr hvars core right, ← hstorage₁]
    exact Storage.values_of_suits held unbound hfirst hsecond hdistinct core
  refine .pure ⟨code₁ ++ code₂, ?_,
    { advances := ⟨_, (hadv.trans (hadv₁.trans hadv₂)).weaken
        (fun h : left.Portless ∧ right.Portless => ⟨trivial, h⟩) fun _ hr => hr⟩
      unbound := by rw [hstorage₂]; exact unbound
      fills := fun i hi => (List.mem_append.1 hi).elim (hfills₁ i) (hfills₂ i)
      free := fun hf hs => by rw [hstorage₂]; exact hzero hf hs
      first := fun mode core => (hvalues mode core).1
      second := fun mode core => (hvalues mode core).2 }⟩
  rw [straight_append, hadv₁.alike.current, hadv.alike.current]
  simp

/-- Brings the sides of a condition into registers, moves one of them to the register `pivot` if
neither is there, and tells how the other is to compare with it. -/
def sides (pivot : Register) (comparison : Comparison) (left right : Referent) :
    Build (Comparison × Register) := do
  let pair ← gather left right
  if pair.1 = pivot then return (comparison.swapped, pair.2)
  else if pair.2 = pivot then return (comparison, pair.1)
  else do
    instruct (transfer pair.1 pivot)
    return (comparison.swapped, pair.2)

/-- A condition is its sides and a comparison with `r0`. -/
theorem compare_eq (condition : Condition) (accept reject : Target) (line : Nat) :
    compare condition accept reject line = (do
      let left ← referent condition.left
      let right ← referent condition.right
      if left.isLiteral && right.isLiteral then Action.fail .literalComparison
      else do
        let test ← sides 0 condition.comparison left right
        emit (.compare test.1 test.2.byte accept reject line)) := by
  unfold compare sides gather
  congr 1
  funext left
  congr 1
  funext right
  split
  · rfl
  · simp only [bind_assoc, pure_bind]
    congr 1
    funext _
    congr 1
    funext first
    congr 1
    funext second
    split
    · rfl
    · split <;> rfl

/-- What the sides of a condition come to: code that only fills registers, after which the test of a
register with `r0` comes out as the comparison does on what the sides held before. -/
def Sided (comparison : Comparison) (left right : Referent) (before after : BuildState)
    (test : Comparison × Register) (code : List Instruction) : Prop :=
  (∃ used, Advances (left.Portless ∧ right.Portless) used before code after) ∧
    after.storage.Unbound ∧ (∀ i ∈ code, ∃ r, Fills r i) ∧
    ∀ mode (core : Core),
      test.1.holds ((core.executeAll mode code).reg test.2.byte) ((core.executeAll mode code).reg 0) =
        comparison.holds (left.value before.storage core) (right.value before.storage core)

/-- Where neither side is in `r0`, both are named registers, so that `r0` is free for a copy of the left
one. -/
theorem gives_copyLeft {s : BuildState} {pair : Register × Register} {code : List Instruction}
    (hranged : s.Ranged number) (gathered : Gathered left right state s pair code)
    (hf : pair.1 ≠ 0) (hs : pair.2 ≠ 0) (comparison : Comparison) :
    Gives number (do
        instruct (transfer pair.1 0)
        return (comparison.swapped, pair.2)) s fun test after items =>
      items = straight s.current [transfer pair.1 0] ∧
        Sided comparison left right state after test (code ++ [transfer pair.1 0]) := by
  obtain ⟨used, hadv⟩ := gathered.advances
  have hmoves : Fills 0 (transfer pair.1 0) := fun _ core => ⟨core.reg pair.1.byte, rfl⟩
  have hcalm : True → Storage.Calm s.storage (transfer pair.1 0) := fun _ => trivial
  refine (gives_fill hranged (gathered.free hf hs) (fits_transfer pair.1 0) hcalm hmoves).bind
    fun _ after items h => ?_
  obtain ⟨hstorage, rfl, hadv'⟩ := h
  refine .pure ⟨List.append_nil _,
    ⟨_, (hadv.trans hadv').weaken (fun h => ⟨h, trivial⟩) fun _ hr => hr⟩, ?_, fun i hi => ?_,
    fun mode core => ?_⟩
  · rw [hstorage]
    exact gathered.unbound
  · rcases List.mem_append.1 hi with hi | hi
    · exact gathered.fills i hi
    · rw [List.mem_singleton.1 hi]
      exact ⟨0, hmoves⟩
  · have hmove : core.executeAll mode (code ++ [transfer pair.1 0]) =
        (core.executeAll mode code).setReg (0 : Register).byte (left.value state.storage core) := by
      rw [Core.executeAll_append, ← gathered.first mode core]
      rfl
    have hzero : ∀ v, ((core.executeAll mode code).setReg (0 : Register).byte v).reg 0 = v :=
      fun v => Core.reg_setReg_self _ (0 : Register) v
    rw [hmove, hzero, Core.reg_setReg_of_ne _ (Ne.symm hs), gathered.second, Comparison.holds_swapped]

theorem gives_sides (hstate : state.Ranged number) (vacant : state.storage.Vacant)
    (comparison : Comparison) (hleft : left.InRange state.storage)
    (hright : right.InRange state.storage) :
    Gives number (sides 0 comparison left right) state fun test after items =>
      ∃ code, items = straight state.current code ∧
        Sided comparison left right state after test code := by
  refine (gives_gather hstate vacant hleft hright).bind fun pair s items h => ?_
  obtain ⟨code, rfl, gathered⟩ := h
  obtain ⟨used, hadv⟩ := gathered.advances
  by_cases hf : pair.1 = 0
  · rw [if_pos hf]
    refine .pure ⟨code, List.append_nil _, ⟨_, hadv⟩, gathered.unbound, gathered.fills,
      fun mode core => ?_⟩
    have hl := gathered.first mode core
    rw [hf] at hl
    rw [gathered.second, Comparison.holds_swapped, ← hl]
    rfl
  · rw [if_neg hf]
    by_cases hs : pair.2 = 0
    · rw [if_pos hs]
      refine .pure ⟨code, List.append_nil _, ⟨_, hadv⟩, gathered.unbound, gathered.fills,
        fun mode core => ?_⟩
      have hr := gathered.second mode core
      rw [hs] at hr
      rw [gathered.first, ← hr]
      rfl
    · rw [if_neg hs]
      refine (gives_copyLeft (hadv.ranged hstate) gathered hf hs comparison).imp
        fun test after items h => ?_
      obtain ⟨rfl, hsided⟩ := h
      exact ⟨code ++ [transfer pair.1 0], by rw [straight_append, hadv.alike.current], hsided⟩

/-- Every condition whose sides refer to something can be put out, whatever its targets are, unless it
compares two numbers. -/
theorem exists_compare (hstate : state.Ranged number) (vacant : state.storage.Vacant)
    {condition : Condition}
    (hleft : Referent.ofOperand state.storage state.current condition.left = .ok left)
    (hright : Referent.ofOperand state.storage state.current condition.right = .ok right)
    (numbers : (left.isLiteral && right.isLiteral) = false) (accept reject : Target) (line : Nat) :
    let tested := (compare condition accept reject line).run state
    ∃ code comparison register, tested.result = .ok () ∧
      streamed tested.output = straight state.current code ++
        [(state.current, .compare comparison register accept reject line)] ∧
      (∀ i ∈ code, i.Steady ∧ ∃ r, Fills r i) ∧
      ∀ mode (core : Core),
        comparison.holds ((core.executeAll mode code).reg register) ((core.executeAll mode code).reg 0) =
          condition.comparison.holds (left.value state.storage core) (right.value state.storage core) := by
  intro tested
  obtain ⟨test, sided, output, hsides, code, hcode, ⟨used, hadv⟩, -, hfills, hholds⟩ :=
    (gives_sides hstate vacant condition.comparison (Referent.inRange_ofOperand hleft)
      (Referent.inRange_ofOperand hright)).exists_run
  have hrun : tested = Outcome.andThen ⟨.ok test, sided, output⟩ fun test =>
      emit (.compare test.1 test.2.byte accept reject line) := by
    unfold tested
    rw [compare_eq]
    simp only [referent, Action.run_bind, Action.run_get, Outcome.andThen_ok_nil,
      Action.run_ofExcept, hleft, hright, numbers, Bool.false_eq_true, if_false, hsides]
  refine ⟨code, test.1, test.2.byte, by rw [hrun]; rfl, ?_,
    fun i hi => ⟨(hadv.serves.fits i hi).2, hfills i hi⟩, hholds⟩
  rw [hrun, Outcome.andThen_ok, streamed_append, hcode, ← hadv.alike.current]
  rfl

/-! ## Comparisons -/

/-- What a condition puts out, and what that does: the comparison comes out as the condition does on what
its sides held before, and no variable is held in a register. -/
def Compared (condition : Condition) (accept reject : Target) (line : Nat) (scope : Scope)
    (before after : Storage) (items : List (Scope × Item)) : Prop :=
  ∃ left right code comparison register,
    Referent.ofOperand before scope condition.left = .ok left ∧
    Referent.ofOperand before scope condition.right = .ok right ∧
    items = straight scope code ++ [(scope, .compare comparison register accept reject line)] ∧
    after.Unbound ∧ (∃ used, Serves (left.Portless ∧ right.Portless) used before code after) ∧
    ∀ mode (core : Core),
      comparison.holds ((core.executeAll mode code).reg register) ((core.executeAll mode code).reg 0) =
        condition.comparison.holds (left.value before core) (right.value before core)

theorem yields_emitCompare (hstate : state.Ranged number) {accept reject : Target}
    (labels : ∀ label ∈ accept.labels ++ reject.labels, label < state.labels.size) :
    Yields number (emit (.compare comparison register.byte accept reject number)) state
      fun _ after items => Stays state after ∧ after.storage = state.storage ∧
        items = [(state.current, .compare comparison register.byte accept reject number)] := by
  have hfits : (Item.compare comparison register.byte accept reject number).Fits := by
    simp [Item.Fits]
  refine (yields_emit hstate hfits (fun i hi => (by cases hi)) labels fun line hline => ?_).imp
    fun _ after items h => ⟨.of_alike hstate h.1 h.2.1, h.2⟩
  simpa [Item.lines] using hline

/-- Every condition can be put out, unless it compares two numbers. -/
theorem yields_compare (hstate : state.Ranged number) (vacant : state.storage.Vacant)
    (condition : Condition) {accept reject : Target}
    (labels : ∀ label ∈ accept.labels ++ reject.labels, label < state.labels.size) :
    Yields number (compare condition accept reject number) state fun _ after items =>
      Stays state after ∧
        Compared condition accept reject number state.current state.storage after.storage items := by
  rw [compare_eq]
  refine (yields_referent condition.left).bind fun left _ _ h => ?_
  obtain ⟨rfl, rfl, hinl, hofl⟩ := h
  refine (yields_referent condition.right).bind fun right s _ h => ?_
  obtain ⟨rfl, rfl, hinr, hofr⟩ := h
  split
  · exact .fail (.inr (.inl rfl))
  refine (gives_sides hstate vacant condition.comparison hinl hinr).1.bind
    fun test tested items h => ?_
  obtain ⟨code, rfl, ⟨used, hadv⟩, hunbound, -, hholds⟩ := h
  refine (yields_emitCompare (hadv.ranged hstate) (by rw [hadv.alike.labels]; exact labels)).imp
    fun _ after items h => ?_
  obtain ⟨hstays, hstorage, rfl⟩ := h
  refine ⟨hadv.stays.trans hstays, left, right, code, test.1, test.2.byte, hofl, hofr, ?_, ?_, ?_, hholds⟩
  · rw [hadv.alike.current]
    rfl
  · rw [hstorage]
    exact hunbound
  · rw [hstorage]
    exact ⟨used, hadv.serves⟩

end Build

end ByteBasic
