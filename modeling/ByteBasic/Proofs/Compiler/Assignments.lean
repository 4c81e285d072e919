import ByteBasic.Proofs.Compiler.Updating
import ByteBasic.Proofs.Source.Meaning

/-!
# Assignments

An assignment pins the registers that the source names, then a register for each operand, then one
for the destination, and puts out one instruction. That makes at most seven registers, so none of
the steps can fail for want of one.

What it comes to is `Build.Performed`: code of steady instructions that gives the destination, of whatever
sort it is, the value of the computation on what the operands held before (`Storage.Updates`). The value of
an operand waits in a register that is pinned while the others are fetched and the destination is made
ready, and the instruction at the end reads them all before it writes. Variables and registers are computed
into directly (`performed_variable`, `performed_register`); for a cell there is a store behind
(`yields_storeCell`).
-/

namespace ByteBasic

namespace Computation

/-- Whether a computation starts from what its destination holds. -/
def keeps : Computation → Bool
  | .compound _ _ => true
  | _ => false

/-- A computation that reads no port. -/
def Portless (computation : Computation) : Prop :=
  ∀ referent ∈ computation.operands, referent.Portless

/-- The value of a computation on what its operands hold; `old` is what the destination holds. -/
def value (read : Referent → UInt8) (old : UInt8) : Computation → UInt8
  | .set source => read source
  | .combine left op right => op.apply (read left) (read right)
  | .compound op source => op.apply old (read source)

/-- A computation that reads no slot of a variable as a memory cell. -/
def Apart (storage : Storage) (computation : Computation) : Prop :=
  ∀ referent ∈ computation.operands, referent.Apart storage

/-- The value of a computation whose operands have values; `old` is what the destination holds. -/
def value? (read : Referent → Option UInt8) (old : UInt8) : Computation → Option UInt8
  | .set source => read source
  | .combine left op right => do
    let left ← read left
    let right ← read right
    return op.apply left right
  | .compound op source => do
    let right ← read source
    return op.apply old right

/-- The value depends on the operands, and on the destination only if it starts from there. -/
theorem value_congr {read read' : Referent → UInt8} {old old' : UInt8} {computation : Computation}
    (hread : ∀ r ∈ computation.operands, read r = read' r)
    (hold : computation.keeps = true → old = old') :
    computation.value read old = computation.value read' old' := by
  cases computation with
  | set source => exact hread source (by simp [operands])
  | combine left op right =>
    simp only [value, hread left (by simp [operands]), hread right (by simp [operands])]
  | compound op source => simp only [value, hread source (by simp [operands]), hold rfl]

theorem Apart.of_same {before after : Storage} {computation : Computation}
    (h : computation.Apart before) (same : before.SameVars after) : computation.Apart after :=
  fun referent hmem => (h referent hmem).of_same same

/-- A value that can be said beforehand is the value. -/
theorem value_of_value? {storage : Storage} {core : Core} {old byte : UInt8}
    {computation : Computation} (h : computation.value? (Referent.value? storage core) old = some byte) :
    computation.Apart storage ∧ computation.value (Referent.value storage core) old = byte := by
  cases computation with
  | set source =>
    obtain ⟨apart, hvalue⟩ := Referent.value_of_value? h
    exact ⟨by simpa [Apart, operands] using apart, hvalue⟩
  | combine left op right =>
    simp only [value?, Option.bind_eq_bind, Option.bind_eq_some_iff, Option.pure_def] at h
    obtain ⟨x, hx, y, hy, hbyte⟩ := h
    obtain ⟨apart, rfl⟩ := Referent.value_of_value? hx
    obtain ⟨apart', rfl⟩ := Referent.value_of_value? hy
    exact ⟨by simpa [Apart, operands] using ⟨apart, apart'⟩, Option.some.inj hbyte⟩
  | compound op source =>
    simp only [value?, Option.bind_eq_bind, Option.bind_eq_some_iff, Option.pure_def] at h
    obtain ⟨y, hy, hbyte⟩ := h
    obtain ⟨apart, rfl⟩ := Referent.value_of_value? hy
    exact ⟨by simpa [Apart, operands] using apart, Option.some.inj hbyte⟩

end Computation

namespace Build

open Storage (Pins Serves Calm Grants Updates)

variable {number : Nat} {state before middle after : BuildState} {pins : List Register}

/-! ## What a statement leaves as it was -/

/-- Only the storage has changed, and it has the same variables. -/
structure Stays (before after : BuildState) : Prop where
  alike : Alike before after
  tidy : after.storage.Tidy
  same : before.storage.SameVars after.storage

theorem Stays.ranged (h : Stays before after) (hstate : before.Ranged number) :
    after.Ranged number :=
  hstate.of_alike h.alike h.tidy h.same

theorem Stays.trans (h₁ : Stays before middle) (h₂ : Stays middle after) : Stays before after :=
  ⟨h₁.alike.trans h₂.alike, h₂.tidy, h₁.same.trans h₂.same⟩

theorem Stays.of_alike (hstate : before.Ranged number) (alike : Alike before after)
    (hstorage : after.storage = before.storage) : Stays before after :=
  ⟨alike, by rw [hstorage]; exact hstate.tidy, by rw [hstorage]; exact .refl _⟩

theorem Advances.stays {calm : Prop} {used : List Register} {code : List Instruction}
    (h : Advances calm used before code after) : Stays before after :=
  ⟨h.alike, h.serves.tidy, h.serves.same⟩

/-! ## Registers that the source names -/

def namedRegisters (referents : List Referent) : List Register :=
  referents.filterMap fun
    | .register r => some r
    | _ => none

/-- Only values of the statement are pinned. -/
def ByValues (storage : Storage) : Prop :=
  ∀ r, storage.Pinned r → storage.owner r = some .temporary

theorem length_namedRegisters (referents : List Referent) :
    (namedRegisters referents).length ≤ referents.length :=
  List.length_filterMap_le _ _

/-- A variable whose register only a statement could pin can be cleared from it. -/
theorem ByValues.clearable {storage : Storage} (h : ByValues storage) {r : Register} {j : VarId}
    (hj : storage.owner r = some (.variable j)) : (storage.get j).clearable = true := by
  cases hc : (storage.get j).clearable with
  | true => rfl
  | false =>
    have howner := h r (.inr ⟨j, hj, hc⟩)
    rw [hj] at howner
    cases howner

theorem yields_reserve (hstate : state.Ranged number) (hvalues : ByValues state.storage)
    (r : Register) :
    Yields number (reserveNamed (.register r)) state fun _ after items =>
      ∃ code, items = straight state.current code ∧ Advances True [r] state code after ∧
        ByValues after.storage ∧ after.storage.owner r = some .temporary ∧
        ∀ mode core, state.storage.Coherent core → ∀ r' : Register,
          (core.executeAll mode code).reg r'.byte = core.reg r'.byte := by
  obtain ⟨held, events, hrun, hserves, howner, hregs⟩ :=
    Storage.reserve_serves hstate.tidy fun _ hj => hvalues.clearable hj
  refine (yields_advance hstate hrun hserves).imp fun _ after items h => ?_
  obtain ⟨-, rfl, rfl, hadv⟩ := h
  refine ⟨Storage.code events, rfl, hadv, fun r' hp => ?_, howner, hregs⟩
  rcases hserves.pins r' hp with hp | hp
  · rw [(hserves.held r' hp).2]
    exact hvalues r' hp
  · rw [List.mem_singleton.1 hp]
    exact howner

/-- A referent that is no register is passed over. -/
theorem reserveNamed_of_not_register {referent : Referent} (h : ∀ r, referent ≠ .register r) :
    reserveNamed referent = pure () := by
  cases referent with
  | register r => exact absurd rfl (h r)
  | _ => rfl

theorem namedRegisters_cons_of_not_register {referent : Referent} (rest : List Referent)
    (h : ∀ r, referent ≠ .register r) :
    namedRegisters (referent :: rest) = namedRegisters rest := by
  cases referent with
  | register r => exact absurd rfl (h r)
  | _ => rfl

theorem yields_reserveNamed (hstate : state.Ranged number) (hvalues : ByValues state.storage)
    (referents : List Referent) :
    Yields number (referents.forM reserveNamed) state fun _ after items =>
      ∃ code, items = straight state.current code ∧
        Advances True (namedRegisters referents) state code after ∧ ByValues after.storage ∧
        (∀ mode core, state.storage.Coherent core → ∀ r : Register,
          (core.executeAll mode code).reg r.byte = core.reg r.byte) ∧
        ∀ r, .register r ∈ referents → after.storage.owner r = some .temporary := by
  induction referents generalizing state with
  | nil =>
    exact .pure ⟨[], rfl, .refl hstate, hvalues, fun _ _ _ _ => rfl, fun r hr => (by cases hr)⟩
  | cons referent rest ih =>
    by_cases hreg : ∃ r, referent = .register r
    · obtain ⟨r, rfl⟩ := hreg
      refine (yields_reserve hstate hvalues r).bind fun _ s items h => ?_
      obtain ⟨code, rfl, hadv, hvalues', howner, hregs⟩ := h
      refine (ih (hadv.ranged hstate) hvalues').imp fun _ after items h => ?_
      obtain ⟨code', rfl, hadv', hvalues'', hregs', howners⟩ := h
      refine ⟨code ++ code', ?_, ?_, hvalues'', fun mode core hc r' => ?_, fun r' hr' => ?_⟩
      · rw [straight_append, hadv.alike.current]
      · exact (hadv.trans hadv').weaken (fun _ => ⟨trivial, trivial⟩) fun _ hr => hr
      · rw [Core.executeAll_append, hregs' mode _ (hadv.serves.spares mode core hc).coherent,
          hregs mode core hc]
      · -- Reserving the others does not take the first register away again.
        rcases List.mem_cons.1 hr' with heq | hr'
        · cases heq
          rw [(hadv'.serves.held r (.inl howner)).2]
          exact howner
        · exact howners r' hr'
    · have hne : ∀ r, referent ≠ .register r := fun r hr => hreg ⟨r, hr⟩
      have hforM : (referent :: rest).forM reserveNamed =
          (do reserveNamed referent; rest.forM reserveNamed) := rfl
      rw [hforM, reserveNamed_of_not_register hne, pure_bind,
        namedRegisters_cons_of_not_register rest hne]
      refine (ih hstate hvalues).imp fun _ after items h => ?_
      obtain ⟨code, hitems, hadv, hvalues', hregs, howners⟩ := h
      refine ⟨code, hitems, hadv, hvalues', hregs, fun r hr => ?_⟩
      exact howners r ((List.mem_cons.1 hr).resolve_left fun heq => hne r heq.symm)

/-! ## Computations -/

/-- What a target register is for: what holds of the register, of the state that it is given in and
of the code before it. -/
abbrev Readiness := Bool → BuildState → Register → BuildState → List (Scope × Item) → Prop

/-- What a computation into a register comes to: the operands get registers, the target is made
ready, and one instruction or none gives the target its new value. Nothing that happens in between
changes the operands, as long as it is a part of the statement. -/
def Computed (computation : Computation) (ready : Readiness) (state : BuildState) (dest : Register)
    (after : BuildState) (items : List (Scope × Item)) : Prop :=
  ∃ code used middle items' last tail,
    items = straight state.current code ++ (items' ++ straight state.current tail) ∧
    Advances computation.Portless used state code middle ∧
    ready computation.keeps middle dest last items' ∧ after.storage = last.storage ∧
    (∀ i ∈ tail, i.Steady ∧ (computation.Portless → Calm state.storage i)) ∧
    ∀ mode (core core' : Core) used' ready', state.storage.Coherent core →
      computation.Apart state.storage →
      Storage.Spares used' middle.storage (core.executeAll mode code) ready' core' →
      core'.executeAll mode tail = core'.setReg dest.byte
        (computation.value (Referent.value state.storage core) (core'.reg dest.byte))

theorem execute_operation (mode : RotateMode) (op : BinaryOp) (dest left right : Register)
    (core : Core) :
    (Core.execute mode (operation op dest left right) core).1 =
      core.setReg dest.byte (op.apply (core.reg left.byte) (core.reg right.byte)) := by
  cases op <;> rfl

theorem fits_operation (op : BinaryOp) (dest left right : Register) :
    (operation op dest left right).Fits ∧ (operation op dest left right).Steady := by
  cases op <;> exact ⟨by simp [operation, Instruction.Fits, Instruction.nibbles], trivial⟩

theorem calm_operation (storage : Storage) (op : BinaryOp) (dest left right : Register) :
    Calm storage (operation op dest left right) := by
  cases op <;> trivial

theorem fits_transfer (source dest : Register) :
    (transfer source dest).Fits ∧ (transfer source dest).Steady :=
  ⟨by simp [transfer, Instruction.Fits, Instruction.nibbles, Side.index], trivial⟩

section Compute

variable {computation : Computation} {target : Bool → Build Register} {ready : Readiness}

/-- One more instruction completes a computation: it gives the target the value, whatever was done to make
the target ready. -/
theorem yields_last (hstate : state.Ranged number) {used : List Register} {code : List Instruction}
    (hadv : Advances computation.Portless used state code middle) {s : BuildState} {dest : Register}
    {items : List (Scope × Item)} (hstays : Stays middle s)
    (hready : ready computation.keeps middle dest s items) {i : Instruction} (fits : i.Fits)
    (steady : i.Steady) (hcalm : computation.Portless → Calm state.storage i)
    (heffect : ∀ mode (core core' : Core) used' ready', state.storage.Coherent core →
      computation.Apart state.storage →
      Storage.Spares used' middle.storage (core.executeAll mode code) ready' core' →
      (Core.execute mode i core').1 = core'.setReg dest.byte
        (computation.value (Referent.value state.storage core) (core'.reg dest.byte))) :
    Yields number (do instruct i; return dest) s fun dest after items' =>
      Stays state after ∧
        Computed computation ready state dest after
          (straight state.current code ++ (items ++ items')) := by
  have hstays' := hadv.stays.trans hstays
  refine (yields_instruct (hstays'.ranged hstate) fits steady.plain).bind fun _ after items' h => ?_
  obtain ⟨halike, hstorage, rfl⟩ := h
  have hafter := Stays.of_alike (hstays'.ranged hstate) halike hstorage
  refine .pure ⟨hstays'.trans hafter, code, used, middle, items, s, [i], ?_, hadv, hready, hstorage,
    fun j hj => ?_, heffect⟩
  · rw [List.append_nil, hstays'.alike.current]
  · rw [List.mem_singleton.1 hj]
    exact ⟨steady, hcalm⟩

theorem yields_transfer {source : Referent} (hstate : state.Ranged number)
    (hpins : Pins pins state.storage) (room : pins.length < 13)
    (hin : source.InRange state.storage)
    (hnamed : ∀ r, source = .register r → state.storage.owner r = some .temporary)
    (htarget : ∀ s code used pins', Advances (Computation.set source).Portless used state code s →
      Pins pins' s.storage → pins'.length < 15 →
      Yields number (target false) s fun dest s' items => Stays s s' ∧ ready false s dest s' items) :
    Yields number (do
        let register ← operandRegister source
        let dest ← target false
        if register = dest then pure () else instruct (transfer register dest)
        return dest) state fun dest after items =>
      Stays state after ∧ Computed (.set source) ready state dest after items := by
  refine (yields_operandRegister hstate hpins (by omega) hin hnamed).bind
    fun register s items h => ?_
  obtain ⟨⟨code, rfl, hadv, hvalue⟩, hpin⟩ := h
  have hadv' : Advances (Computation.set source).Portless [register] state code s :=
    hadv.weaken (fun h => h source (by simp [Computation.operands])) fun _ hr => hr
  refine (htarget s code _ _ hadv' (hadv.pinsTo hpins) (by simp; omega)).bind
    fun dest s' items' h => ?_
  obtain ⟨hstays, hready⟩ := h
  have hstays' := hadv.stays.trans hstays
  -- The register of the source is pinned, so making the target ready leaves it its value.
  have hreg : ∀ mode (core core' : Core) used' ready', state.storage.Coherent core →
      (Computation.set source).Apart state.storage →
      Storage.Spares used' s.storage (core.executeAll mode code) ready' core' →
      core'.reg register.byte = source.value state.storage core := by
    intro mode core core' used' ready' hc apart hspares
    rw [hspares.reg (.inr hpin)]
    exact hvalue mode core hc (apart source (by simp [Computation.operands]))
  by_cases heq : register = dest
  · subst heq
    rw [if_pos rfl]
    refine .pure ⟨hstays', code, _, s, items', s', [], by simp, hadv', hready, rfl,
      fun i hi => (by cases hi), fun mode core core' used' ready' hc apart hspares => ?_⟩
    show core' = core'.setReg register.byte (source.value state.storage core)
    rw [← hreg mode core core' used' ready' hc apart hspares, Core.setReg_reg]
  · rw [if_neg heq]
    obtain ⟨fits, steady⟩ := fits_transfer register dest
    refine yields_last hstate hadv' hstays hready fits steady (fun _ => trivial)
      fun mode core core' used' ready' hc apart hspares => ?_
    show core'.setReg dest.byte (core'.reg register.byte) =
      core'.setReg dest.byte (source.value state.storage core)
    rw [hreg mode core core' used' ready' hc apart hspares]

theorem yields_copyCell {source : Referent} (hcell : source.isRegistered = false)
    (hstate : state.Ranged number) (hpins : Pins pins state.storage) (room : pins.length < 13)
    (htarget : ∀ s code used pins', Advances (Computation.set source).Portless used state code s →
      Pins pins' s.storage → pins'.length < 15 →
      Yields number (target false) s fun dest s' items => Stays s s' ∧ ready false s dest s' items) :
    Yields number (do
        let dest ← target false
        copyInto source dest
        return dest) state fun dest after items =>
      Stays state after ∧ Computed (.set source) ready state dest after items := by
  have hadv : Advances (Computation.set source).Portless [] state [] state := .refl hstate
  refine (htarget state [] _ _ hadv hpins (by omega)).bind fun dest s items h => ?_
  obtain ⟨hstays, hready⟩ := h
  have hmem : source ∈ (Computation.set source).operands := by simp [Computation.operands]
  -- In each case one instruction fills the target.
  have hone : ∀ i : Instruction, copyInto source dest = instruct i → source.Fetches dest i →
      Yields number (do copyInto source dest; return dest) s fun dest after items' =>
        Stays state after ∧ Computed (.set source) ready state dest after (items ++ items') := by
    intro i hcopy hfetch
    rw [hcopy]
    refine yields_last hstate hadv hstays hready hfetch.fits hfetch.steady
      (fun hp => hfetch.calm (hp source hmem) _) fun mode core core' used' ready' hc apart hspares => ?_
    rw [hfetch.effect mode ready' core', Referent.value_of_spares_cell hcell (apart source hmem) hspares]
    rfl
  rcases source with ⟨id⟩ | ⟨r⟩ | ⟨address⟩ | ⟨address⟩ | ⟨value⟩
  · cases hcell
  · cases hcell
  · exact hone _ rfl (Referent.fetches_memory address dest)
  · exact hone _ rfl (Referent.fetches_port address dest)
  · exact hone _ rfl (Referent.fetches_literal value dest)

/-- The target is made ready, and an operation on it and on the registers of the operands completes the
computation. `left` may be the target itself. -/
theorem yields_operate (hstate : state.Ranged number) {used : List Register} {code : List Instruction}
    (hadv : Advances computation.Portless used state code middle)
    (htarget : Yields number (target computation.keeps) middle fun dest s items =>
      Stays middle s ∧ ready computation.keeps middle dest s items)
    (op : BinaryOp) (left : Register → Register) (right : Register)
    (hvalue : ∀ (dest : Register) mode (core core' : Core) used' ready',
      state.storage.Coherent core → computation.Apart state.storage →
      Storage.Spares used' middle.storage (core.executeAll mode code) ready' core' →
      op.apply (core'.reg (left dest).byte) (core'.reg right.byte) =
        computation.value (Referent.value state.storage core) (core'.reg dest.byte)) :
    Yields number (do
        let dest ← target computation.keeps
        instruct (operation op dest (left dest) right)
        return dest) middle fun dest after items =>
      Stays state after ∧
        Computed computation ready state dest after (straight state.current code ++ items) := by
  refine htarget.bind fun dest s items h => ?_
  obtain ⟨hstays, hready⟩ := h
  obtain ⟨fits, steady⟩ := fits_operation op dest (left dest) right
  refine yields_last hstate hadv hstays hready fits steady (fun _ => calm_operation _ op _ _ _)
    fun mode core core' used' ready' hc apart hspares => ?_
  rw [execute_operation, hvalue dest mode core core' used' ready' hc apart hspares]

theorem yields_combine {left right : Referent} (op : BinaryOp) (hstate : state.Ranged number)
    (hpins : Pins pins state.storage) (room : pins.length < 13)
    (hleft : left.InRange state.storage) (hright : right.InRange state.storage)
    (hnamed : ∀ r, left = .register r → state.storage.owner r = some .temporary)
    (hnamed' : ∀ r, right = .register r → state.storage.owner r = some .temporary)
    (htarget : ∀ s code used pins',
      Advances (Computation.combine left op right).Portless used state code s →
      Pins pins' s.storage → pins'.length < 15 →
      Yields number (target false) s fun dest s' items => Stays s s' ∧ ready false s dest s' items) :
    Yields number (do
        let a ← operandRegister left
        let b ← operandRegister right
        let dest ← target false
        instruct (operation op dest a b)
        return dest) state fun dest after items =>
      Stays state after ∧ Computed (.combine left op right) ready state dest after items := by
  have hmem : left ∈ (Computation.combine left op right).operands := by simp [Computation.operands]
  have hmem' : right ∈ (Computation.combine left op right).operands := by
    simp [Computation.operands]
  refine (yields_operandRegister hstate hpins (by omega) hleft hnamed).bind fun a s₁ items₁ h => ?_
  obtain ⟨⟨code₁, rfl, hadv₁, hvalue₁⟩, hpin₁⟩ := h
  refine (yields_operandRegister (hadv₁.ranged hstate) (hadv₁.pinsTo hpins) (by simp; omega)
    (hadv₁.inRange hright) fun r hr => ?_).bind fun b s₂ items₂ h => ?_
  · rw [(hadv₁.serves.held r (.inl (hnamed' r hr))).2, hnamed' r hr]
  obtain ⟨⟨code₂, rfl, hadv₂, hvalue₂⟩, hpin₂⟩ := h
  have hadv : Advances (Computation.combine left op right).Portless ([a] ++ [b]) state
      (code₁ ++ code₂) s₂ :=
    (hadv₁.trans hadv₂).weaken (fun h => ⟨h left hmem, h right hmem'⟩) fun _ hr => hr
  have hoperate := yields_operate hstate hadv
    (htarget s₂ _ _ _ hadv (hadv.pinsTo hpins) (by simp; omega)) op (fun _ => a) b
    fun dest mode core core' used' ready' hc apart hspares => ?_
  · refine hoperate.imp fun dest after items h => ?_
    rw [straight_append, List.append_assoc] at h
    rwa [hadv₁.alike.current]
  · -- The register of the left operand is pinned while the right one is fetched.
    have hspares₁ := hadv₁.serves.spares mode core hc
    have hspares₂ := hadv₂.serves.spares mode _ hspares₁.coherent
    have ha : core'.reg a.byte = left.value state.storage core := by
      rw [hspares.reg (.inr (hadv₂.serves.held a hpin₁).1), Core.executeAll_append,
        hspares₂.reg (.inr hpin₁), hvalue₁ mode core hc (apart left hmem)]
    have hb : core'.reg b.byte = right.value state.storage core := by
      rw [hspares.reg (.inr hpin₂), Core.executeAll_append,
        hvalue₂ mode _ hspares₁.coherent ((apart right hmem').of_same hadv₁.serves.same)]
      exact Referent.value_of_spares hright (apart right hmem')
        (fun r hr => hspares₁.reg (.inr (.inl (hnamed' r hr)))) hspares₁
    rw [ha, hb]
    rfl

/-- Combining what the target holds with an operand. -/
theorem yields_compound {source : Referent} (op : BinaryOp) (hstate : state.Ranged number)
    (hpins : Pins pins state.storage) (room : pins.length < 13)
    (hin : source.InRange state.storage)
    (hnamed : ∀ r, source = .register r → state.storage.owner r = some .temporary)
    (htarget : ∀ s code used pins', Advances (Computation.compound op source).Portless used state code s →
      Pins pins' s.storage → pins'.length < 15 →
      Yields number (target true) s fun dest s' items => Stays s s' ∧ ready true s dest s' items) :
    Yields number (do
        let b ← operandRegister source
        let dest ← target true
        instruct (operation op dest dest b)
        return dest) state fun dest after items =>
      Stays state after ∧ Computed (.compound op source) ready state dest after items := by
  have hmem : source ∈ (Computation.compound op source).operands := by simp [Computation.operands]
  refine (yields_operandRegister hstate hpins (by omega) hin hnamed).bind fun b s items h => ?_
  obtain ⟨⟨code, rfl, hadv, hvalue⟩, hpin⟩ := h
  have hadv' : Advances (Computation.compound op source).Portless [b] state code s :=
    hadv.weaken (fun h => h source hmem) fun _ hr => hr
  refine yields_operate hstate hadv'
    (htarget s _ _ _ hadv' (hadv'.pinsTo hpins) (by simp; omega)) op (fun dest => dest) b
    fun dest mode core core' used' ready' hc apart hspares => ?_
  rw [hspares.reg (.inr hpin), hvalue mode core hc (apart source hmem)]
  rfl

/-- Every computation whose operands are in range can be carried out. -/
theorem yields_compute (ready : Readiness) (hstate : state.Ranged number)
    (hpins : Pins pins state.storage) (room : pins.length < 13)
    (hin : ∀ r ∈ computation.operands, r.InRange state.storage)
    (hnamed : ∀ r, .register r ∈ computation.operands → state.storage.owner r = some .temporary)
    (htarget : ∀ s code used pins', Advances computation.Portless used state code s →
      Pins pins' s.storage → pins'.length < 15 →
      Yields number (target computation.keeps) s fun dest s' items =>
        Stays s s' ∧ ready computation.keeps s dest s' items) :
    Yields number (compute computation target) state fun dest after items =>
      Stays state after ∧ Computed computation ready state dest after items := by
  cases computation with
  | set source =>
    cases hreg : source.isRegistered with
    | true =>
      simp only [compute, hreg, if_true]
      exact yields_transfer hstate hpins room (hin source (by simp [Computation.operands]))
        (fun r hr => hnamed r (by simp [Computation.operands, hr])) htarget
    | false =>
      simp only [compute, hreg, Bool.false_eq_true, if_false]
      exact yields_copyCell hreg hstate hpins room htarget
  | combine left op right =>
    exact yields_combine op hstate hpins room (hin left (by simp [Computation.operands]))
      (hin right (by simp [Computation.operands]))
      (fun r hr => hnamed r (by simp [Computation.operands, hr]))
      (fun r hr => hnamed r (by simp [Computation.operands, hr])) htarget
  | compound op source =>
    exact yields_compound op hstate hpins room (hin source (by simp [Computation.operands]))
      (fun r hr => hnamed r (by simp [Computation.operands, hr])) htarget

end Compute

/-! ## Targets -/

/-- What making a variable ready for a write comes to: its register is granted to it, and with `keep`
holds its value. -/
def Prepared (id : VarId) : Readiness := fun keep state dest after items =>
  ∃ code middle, items = straight state.current code ∧
    Serves True [dest] state.storage code middle ∧ Grants id dest middle after.storage ∧
    (keep = true → ∀ mode core, state.storage.Coherent core →
      (core.executeAll mode code).reg dest.byte = state.storage.value core id)

theorem prepared_of_supplies {id : VarId} {dest : Register} {items : List (Scope × Item)}
    (keep : Bool) (h : Supplies (.variable id) state dest after items)
    (hr : (after.storage.get id).register = some dest) :
    Stays state after ∧ Prepared id keep state dest after items := by
  obtain ⟨code, rfl, hadv, hvalue⟩ := h
  refine ⟨hadv.stays, code, after.storage, rfl, ?_, .refl hadv.serves.tidy.agrees hr, ?_⟩
  · exact hadv.serves.weaken (fun _ address => by simp) fun _ hr => hr
  · intro _ mode core hc
    exact hvalue mode core hc fun _ heq => (by cases heq)

/-- A variable can always be made ready for a write. -/
theorem yields_bindForWrite (hstate : state.Ranged number) (hpins : Pins pins state.storage)
    (room : pins.length < 15) {id : VarId} (hid : id < state.storage.vars.length) (keep : Bool) :
    Yields number (bindForWrite id keep) state fun dest after items =>
      Stays state after ∧ Prepared id keep state dest after items := by
  refine .registerOf ?_
  cases hr : (state.storage.get id).register with
  | some register =>
    exact (yields_keepVariable hstate hr).imp fun _ _ _ h => prepared_of_supplies keep h.1 h.2.1
  | none =>
    cases keep with
    | true =>
      exact (yields_loadVariable hstate hpins room hid hr).imp fun _ _ _ h =>
        prepared_of_supplies true h.1 h.2.1
    | false =>
      -- The old value is not needed, so a register is picked and nothing is loaded.
      obtain ⟨register, picked, events, hrun, hserves, hstart, hfree, hpin, hunbound⟩ :=
        Storage.pick_serves hstate.tidy hpins room
      refine (yields_advance hstate hrun hserves).bind fun r s items h => ?_
      obtain ⟨rfl, rfl, rfl, hadv⟩ := h
      have hid' : id < s.storage.vars.length := by
        rw [hserves.same.length_eq]
        exact hid
      have hnone := hunbound id hr
      have hgrants := Storage.grants_setOwner hserves.tidy.agrees hid' hnone
        fun j => by rw [hfree]; simp
      have htidy := Storage.tidy_bound hserves.tidy hid' hnone hfree hstart
      refine (yields_storing (hadv.ranged hstate) (Storage.run_bind_unbound hnone hfree)
        fun i hi => (by cases hi)).bind fun _ s' items' h => ?_
      obtain ⟨-, halike, hstorage, rfl⟩ := h
      refine .pure ⟨⟨hadv.alike.trans halike, ?_, ?_⟩, Storage.code events, s.storage, ?_, ?_, ?_,
        fun hk => by cases hk⟩
      · rw [hstorage]
        exact htidy
      · rw [hstorage]
        exact hserves.same.trans hgrants.same
      · simp
      · exact hserves.weaken (fun h => h) fun _ hr => (by cases hr)
      · rw [hstorage]
        exact hgrants

/-- What making a register ready for the new value of a cell comes to: it is held for the statement, and
with `keep` has what the cell holds. -/
def Fresh (dest : Referent) : Readiness := fun keep state register after items =>
  ∃ code, items = straight state.current code ∧
    Serves dest.Portless [register] state.storage code after.storage ∧
    after.storage.owner register = some .temporary ∧
    (keep = true → ∀ mode core, state.storage.Coherent core → dest.Apart state.storage →
      (core.executeAll mode code).reg register.byte = dest.value state.storage core)

/-- A register can always be made ready for the new value of a cell. -/
theorem yields_cellTarget (hstate : state.Ranged number) (hpins : Pins pins state.storage)
    (room : pins.length < 15) {dest : Referent} {load : Register → Instruction}
    (hload : ∀ r, dest.Fetches r (load r)) (keep : Bool) :
    Yields number (cellTarget load keep) state fun register after items =>
      Stays state after ∧ Fresh dest keep state register after items := by
  cases keep with
  | false =>
    obtain ⟨register, held, events, hrun, hserves, -, howner, -⟩ :=
      Storage.scratch_serves hstate.tidy hpins room
    refine (yields_advance hstate hrun hserves).bind fun r s items h => ?_
    obtain ⟨rfl, rfl, rfl, hadv⟩ := h
    exact .pure ⟨hadv.stays, Storage.code events, by simp,
      hserves.weaken (fun _ => trivial) fun _ hr => hr, howner, fun hk => by cases hk⟩
  | true =>
    refine (yields_scratch hstate hpins room hload).imp fun register after items h => ?_
    obtain ⟨⟨code, hitems, hadv, hvalue⟩, howner⟩ := h
    exact ⟨hadv.stays, code, hitems, hadv.serves, howner, fun _ => hvalue⟩

/-- A register that the source names is a target of its own. -/
def Named (register : Register) : Readiness := fun _ state dest after items =>
  dest = register ∧ after = state ∧ items = []

/-! ## Assignments -/

def Resolves (storage : Storage) (scope : Scope) : Update → Computation → Prop
  | .set source, computation => ∃ s, computation = .set s ∧
      Referent.ofOperand storage scope source = .ok s
  | .combine left op right, computation => ∃ l r, computation = .combine l op r ∧
      Referent.ofOperand storage scope left = .ok l ∧
      Referent.ofOperand storage scope right = .ok r
  | .compound op source, computation => ∃ s, computation = .compound op s ∧
      Referent.ofOperand storage scope source = .ok s

theorem yields_resolve (update : Update) :
    Yields number (resolve update) state fun computation after items =>
      after = state ∧ items = [] ∧ Resolves state.storage state.current update computation ∧
        ∀ r ∈ computation.operands, r.InRange state.storage := by
  cases update with
  | set source =>
    refine (yields_referent source).bind fun s _ _ h => ?_
    obtain ⟨rfl, rfl, hin, hof⟩ := h
    exact .pure ⟨rfl, rfl, ⟨s, rfl, hof⟩, by simpa [Computation.operands] using hin⟩
  | combine left op right =>
    refine (yields_referent left).bind fun l _ _ h => ?_
    obtain ⟨rfl, rfl, hinl, hofl⟩ := h
    refine (yields_referent right).bind fun r _ _ h => ?_
    obtain ⟨rfl, rfl, hinr, hofr⟩ := h
    exact .pure ⟨rfl, rfl, ⟨l, r, rfl, hofl, hofr⟩,
      by simpa [Computation.operands] using ⟨hinl, hinr⟩⟩
  | compound op source =>
    refine (yields_referent source).bind fun s _ _ h => ?_
    obtain ⟨rfl, rfl, hin, hof⟩ := h
    exact .pure ⟨rfl, rfl, ⟨s, rfl, hof⟩, by simpa [Computation.operands] using hin⟩

/-- What carrying out a computation comes to: straight code that gives the destination the value of the
computation, which is that of the operands before it. -/
def Performed (computation : Computation) (dest : Referent) (scope : Scope) (before after : Storage)
    (items : List (Scope × Item)) : Prop :=
  ∃ code, items = straight scope code ∧ (∀ i ∈ code, i.Steady) ∧
    (∀ id, dest = .variable id → computation.Portless → ∀ i ∈ code, Calm before i) ∧
    ∀ mode core, before.Coherent core → dest.Apart before → computation.Apart before →
      Updates dest (computation.value (Referent.value before core) (dest.value before core)) before
        core after (core.executeAll mode code)

/-- What an assignment puts out, and what that does. -/
def Assigned (dest : Referent) (update : Update) (scope : Scope) (before after : Storage)
    (items : List (Scope × Item)) : Prop :=
  ∃ computation, Resolves before scope update computation ∧
    Performed computation dest scope before after items

/-- What a part of the statement does before a computation that changes no register belongs to the
computation. -/
theorem Performed.of_advances {computation : Computation} {dest : Referent} {used : List Register}
    {code : List Instruction} {after : Storage} {items : List (Scope × Item)}
    (hin : ∀ referent ∈ dest :: computation.operands, referent.InRange state.storage)
    (hadv : Advances True used state code middle)
    (hregs : ∀ mode core, state.storage.Coherent core → ∀ r : Register,
      (core.executeAll mode code).reg r.byte = core.reg r.byte)
    (h : Performed computation dest middle.current middle.storage after items) :
    Performed computation dest state.current state.storage after
      (straight state.current code ++ items) := by
  obtain ⟨code', rfl, steady, hcalm, hupdates⟩ := h
  have same := hadv.serves.same
  refine ⟨code ++ code', ?_, fun i hi => ?_, fun id hid hp i hi => ?_,
    fun mode core hc apart apart' => ?_⟩
  · rw [straight_append, hadv.alike.current]
  · exact (List.mem_append.1 hi).elim (fun hi => (hadv.serves.fits i hi).2) (steady i)
  · rcases List.mem_append.1 hi with hi | hi
    · exact hadv.serves.calm trivial i hi
    · exact (hcalm id hid hp i hi).of_same same
  · have hspares := hadv.serves.spares mode core hc
    have hvalue : ∀ referent ∈ dest :: computation.operands, referent.Apart state.storage →
        referent.value middle.storage (core.executeAll mode code) =
          referent.value state.storage core :=
      fun referent hmem apart => Referent.value_of_spares (hin referent hmem) apart
        (fun r _ => hregs mode core hc r) hspares
    have hafter := hupdates mode _ hspares.coherent (apart.of_same same) (apart'.of_same same)
    rw [hvalue dest (List.mem_cons_self ..) apart, Computation.value_congr
      (fun r hr => hvalue r (List.mem_cons_of_mem _ hr) (apart' r hr)) fun _ => rfl] at hafter
    rw [Core.executeAll_append]
    exact .of_spares hspares hafter

/-! ### Variables and registers -/

/-- A computation into the register of a variable, which is then marked as modified, gives the
variable the value of the computation. -/
theorem performed_variable {computation : Computation} {id : VarId} {dest : Register}
    {items : List (Scope × Item)} (hid : id < state.storage.vars.length)
    (h : Computed computation (Prepared id) state dest after items) :
    Performed computation (.variable id) state.current state.storage
      (after.storage.update id fun var => { var with modified := true }) items := by
  obtain ⟨code₁, used, middle, items', last, tail, rfl, hadv, hprepared, hstorage, htail,
    hvalue⟩ := h
  obtain ⟨code₂, granted, rfl, hserves, hgrants, hold⟩ := hprepared
  refine ⟨code₁ ++ code₂ ++ tail, ?_, fun i hi => ?_, fun _ _ hp i hi => ?_,
    fun mode core hc _ apart => ?_⟩
  · simp only [straight_append, hadv.alike.current, List.append_assoc]
  · rcases List.mem_append.1 hi with hi | hi
    · exact (List.mem_append.1 hi).elim (fun hi => (hadv.serves.fits i hi).2)
        fun hi => (hserves.fits i hi).2
    · exact (htail i hi).1
  · rcases List.mem_append.1 hi with hi | hi
    · rcases List.mem_append.1 hi with hi | hi
      · exact hadv.serves.calm hp i hi
      · exact (hserves.calm trivial i hi).of_same hadv.serves.same
    · exact (htail i hi).2 hp
  · have hspares := hadv.serves.spares mode core hc
    have hspares' := hserves.spares mode _ hspares.coherent
    have hwhole := (hadv.serves.trans hserves).spares mode core hc
    -- The register holds the old value, should the computation start from it.
    have hkept : computation.keeps = true →
        (core.executeAll mode (code₁ ++ code₂)).reg dest.byte = state.storage.value core id := by
      intro hk
      rw [Core.executeAll_append, hold hk mode _ hspares.coherent, hspares.value hid]
    rw [← Core.executeAll_append] at hspares'
    rw [Core.executeAll_append, hvalue mode core _ _ _ hc apart hspares', hstorage,
      Computation.value_congr (fun _ _ => rfl) hkept]
    exact .of_spares hwhole (hgrants.claim hwhole.coherent _).assigns.updates

theorem yields_markModified (hstate : state.Ranged number) (id : VarId) :
    Yields number (storing (Storage.markModified id)) state fun _ after items =>
      Stays state after ∧
        after.storage = state.storage.update id (fun var => { var with modified := true }) ∧
        items = [] := by
  refine (yields_storing hstate (show (Storage.markModified id).run state.storage =
    ⟨.ok (), _, []⟩ from rfl) fun i hi => (by cases hi)).imp fun _ after items h => ?_
  obtain ⟨-, halike, hstorage, rfl⟩ := h
  refine ⟨⟨halike, ?_, ?_⟩, hstorage, rfl⟩
  · rw [hstorage]
    exact Storage.tidy_modified hstate.tidy id
  · rw [hstorage]
    exact .update _ id fun _ => rfl

/-- An assignment to a variable, once all that the source names is held. -/
theorem yields_assignVariable (hstate : state.Ranged number) (hpins : Pins pins state.storage)
    (room : pins.length < 13) {computation : Computation}
    (hin : ∀ r ∈ computation.operands, r.InRange state.storage)
    (hnamed : ∀ r, .register r ∈ computation.operands → state.storage.owner r = some .temporary)
    {id : VarId} (hid : id < state.storage.vars.length) :
    Yields number (do
        let _ ← compute computation (bindForWrite id)
        storing (Storage.markModified id)) state fun _ after items =>
      Stays state after ∧
        Performed computation (.variable id) state.current state.storage after.storage items := by
  have htarget : ∀ s code used pins', Advances computation.Portless used state code s →
      Pins pins' s.storage → pins'.length < 15 →
      Yields number (bindForWrite id computation.keeps) s fun dest s' items =>
        Stays s s' ∧ Prepared id computation.keeps s dest s' items := by
    intro s code used pins' hadv hpins' room'
    refine yields_bindForWrite (hadv.ranged hstate) hpins' room' ?_ computation.keeps
    rw [hadv.serves.same.length_eq]
    exact hid
  refine (yields_compute (Prepared id) hstate hpins room hin hnamed htarget).bind
    fun dest s items h => ?_
  obtain ⟨hstays, hcomputed⟩ := h
  refine (yields_markModified (hstays.ranged hstate) id).imp fun _ after items' h => ?_
  obtain ⟨hmarked, hstorage, rfl⟩ := h
  refine ⟨hstays.trans hmarked, ?_⟩
  rw [hstorage, List.append_nil]
  exact performed_variable hid hcomputed

/-- A computation into a register that is held for the statement gives it the value of the
computation. -/
theorem performed_register {computation : Computation} {register dest : Register}
    {items : List (Scope × Item)} (howner : state.storage.owner register = some .temporary)
    (h : Computed computation (Named register) state dest after items) :
    Performed computation (.register register) state.current state.storage after.storage items := by
  obtain ⟨code, used, middle, items', last, tail, rfl, hadv, ⟨rfl, rfl, rfl⟩, hstorage, htail,
    hvalue⟩ := h
  obtain ⟨hpinned, hheld⟩ := hadv.serves.held dest (.inl howner)
  refine ⟨code ++ tail, by simp, fun i hi => ?_, fun _ hid => (by cases hid),
    fun mode core hc _ apart => ?_⟩
  · exact (List.mem_append.1 hi).elim (fun hi => (hadv.serves.fits i hi).2)
      fun hi => (htail i hi).1
  · have hspares := hadv.serves.spares mode core hc
    have hreg : (core.executeAll mode code).reg dest.byte = core.reg dest.byte :=
      hspares.reg (.inr (.inl howner))
    rw [Core.executeAll_append, hvalue mode core _ [] last.storage hc apart
      (.of_keeps (.refl hspares.coherent)), hstorage, hreg]
    exact .of_spares hspares (Storage.updates_setReg hspares.coherent
      (fun j => by rw [hheld, howner]; simp) _)

/-- An assignment to a register that is held for the statement. -/
theorem yields_assignRegister (hstate : state.Ranged number) (hpins : Pins pins state.storage)
    (room : pins.length < 13) {computation : Computation}
    (hin : ∀ r ∈ computation.operands, r.InRange state.storage)
    (hnamed : ∀ r, .register r ∈ computation.operands → state.storage.owner r = some .temporary)
    {register : Register} (howner : state.storage.owner register = some .temporary) :
    Yields number (do
        let _ ← compute computation fun _ => return register) state fun _ after items =>
      Stays state after ∧
        Performed computation (.register register) state.current state.storage after.storage
          items := by
  refine (yields_compute (Named register) hstate hpins room hin hnamed
    fun s _ _ _ hadv _ _ => ?_).bind fun _ after items h => ?_
  · exact .pure ⟨.of_alike (hadv.ranged hstate) (.refl s) rfl, rfl, rfl, rfl⟩
  · rw [← List.append_nil items] at h
    exact .pure ⟨h.1, performed_register howner h.2⟩

/-! ### Cells -/

/-- What a register for the new value of a cell comes to: code that leaves every variable its value, and
the value of the computation in the register. -/
def Valued (computation : Computation) (dest : Referent) (state : BuildState) (register : Register)
    (after : BuildState) (items : List (Scope × Item)) : Prop :=
  ∃ code, items = straight state.current code ∧ (∀ i ∈ code, i.Steady) ∧
    ∀ mode core, state.storage.Coherent core → dest.Apart state.storage →
      computation.Apart state.storage →
      (∃ written, Storage.Keeps written state.storage core after.storage (core.executeAll mode code)) ∧
      (core.executeAll mode code).reg register.byte =
        computation.value (Referent.value state.storage core) (dest.value state.storage core)

theorem valued_of_supplies {source dest : Referent} {register : Register}
    {items : List (Scope × Item)} (h : Supplies source state register after items) :
    Stays state after ∧ Valued (.set source) dest state register after items := by
  obtain ⟨code, rfl, hadv, hvalue⟩ := h
  refine ⟨hadv.stays, code, rfl, fun i hi => (hadv.serves.fits i hi).2,
    fun mode core hc _ apart => ⟨?_, ?_⟩⟩
  · obtain ⟨written, hk, -⟩ := hadv.serves.spares mode core hc
    exact ⟨written, hk⟩
  · exact hvalue mode core hc (apart source (by simp [Computation.operands]))

theorem valued_of_computed {computation : Computation} {dest : Referent} {register : Register}
    {items : List (Scope × Item)} (hcell : dest.isRegistered = false)
    (h : Computed computation (Fresh dest) state register after items) :
    Valued computation dest state register after items := by
  obtain ⟨code₁, used, middle, items', last, tail, rfl, hadv, hfresh, hstorage, htail, hvalue⟩ := h
  obtain ⟨code₂, rfl, hserves, howner, hold⟩ := hfresh
  refine ⟨code₁ ++ code₂ ++ tail, ?_, fun i hi => ?_, fun mode core hc apart apart' => ?_⟩
  · simp only [straight_append, hadv.alike.current, List.append_assoc]
  · rcases List.mem_append.1 hi with hi | hi
    · exact (List.mem_append.1 hi).elim (fun hi => (hadv.serves.fits i hi).2)
        fun hi => (hserves.fits i hi).2
    · exact (htail i hi).1
  · have hspares := hadv.serves.spares mode core hc
    have hspares' := hserves.spares mode _ hspares.coherent
    obtain ⟨written, hk, -⟩ := (hadv.serves.trans hserves).spares mode core hc
    have hkept : computation.keeps = true →
        (core.executeAll mode (code₁ ++ code₂)).reg register.byte =
          dest.value state.storage core := by
      intro hkeep
      rw [Core.executeAll_append, hold hkeep mode _ hspares.coherent (apart.of_same hadv.serves.same)]
      exact Referent.value_of_spares_cell hcell apart hspares
    rw [← Core.executeAll_append] at hspares'
    rw [Core.executeAll_append, hvalue mode core _ _ _ hc apart' hspares', hstorage,
      Computation.value_congr (fun _ _ => rfl) hkept]
    have hset := Storage.Keeps.setReg hk.coherent (fun j => by rw [howner]; simp)
      (computation.value (Referent.value state.storage core) (dest.value state.storage core))
      (List.mem_singleton_self register)
    exact ⟨⟨written ++ [register], (hk.mono fun r hr => List.mem_append_left _ hr).trans
      (hset.mono fun r hr => List.mem_append_right _ hr)⟩, Core.reg_setReg_self _ _ _⟩

theorem yields_computeCell (hstate : state.Ranged number) (hpins : Pins pins state.storage)
    (room : pins.length < 13) {computation : Computation}
    (hin : ∀ r ∈ computation.operands, r.InRange state.storage)
    (hnamed : ∀ r, .register r ∈ computation.operands → state.storage.owner r = some .temporary)
    {dest : Referent} {load : Register → Instruction} (hload : ∀ r, dest.Fetches r (load r)) :
    Yields number (computeCell computation load) state fun register after items =>
      Stays state after ∧ Valued computation dest state register after items := by
  have hcompute : Yields number (compute computation (cellTarget load)) state
      fun register after items => Stays state after ∧ Valued computation dest state register after items :=
    (yields_compute (Fresh dest) hstate hpins room hin hnamed
      fun s code used pins' hadv hpins' room' =>
        yields_cellTarget (hadv.ranged hstate) hpins' room' hload computation.keeps).imp
          fun _ _ _ h => ⟨h.1, valued_of_computed (hload 0).cell h.2⟩
  cases computation with
  | set source =>
    exact (yields_operandRegister hstate hpins (by omega)
      (hin source (by simp [Computation.operands]))
      fun r hr => hnamed r (by simp [Computation.operands, hr])).imp
        fun _ _ _ h => valued_of_supplies h.1
  | combine left op right => exact hcompute
  | compound op source => exact hcompute

/-- An instruction that writes a register to a cell. -/
structure Puts (dest : Referent) (register : Register) (i : Instruction) : Prop where
  fits : i.Fits
  steady : i.Steady
  effect : ∀ mode (storage : Storage) core, storage.Coherent core → dest.Apart storage →
    Updates dest (core.reg register.byte) storage core storage (Core.execute mode i core).1

theorem puts_memory (address : UInt8) (register : Register) :
    Puts (.memory address) register (.store register.byte address) :=
  ⟨Storage.fits_store register address, trivial, fun _ _ _ hc apart =>
    Storage.updates_setMem hc apart _⟩

theorem fits_storePort (r : Register) (address : UInt8) :
    (Instruction.storePort r.byte address).Fits := by
  simp [Instruction.Fits, Instruction.nibbles]

theorem puts_port (address : UInt8) (register : Register) :
    Puts (.port address) register (.storePort register.byte address) :=
  ⟨fits_storePort register address, trivial, fun _ _ _ hc _ =>
    Storage.updates_setPort hc address _⟩

theorem yields_storeCell (hstate : state.Ranged number) (hpins : Pins pins state.storage)
    (room : pins.length < 13) {computation : Computation}
    (hin : ∀ r ∈ computation.operands, r.InRange state.storage)
    (hnamed : ∀ r, .register r ∈ computation.operands → state.storage.owner r = some .temporary)
    {dest : Referent} {load store : Register → Instruction} (hload : ∀ r, dest.Fetches r (load r))
    (hstore : ∀ r, Puts dest r (store r)) :
    Yields number (do
        let register ← computeCell computation load
        instruct (store register)) state fun _ after items =>
      Stays state after ∧
        Performed computation dest state.current state.storage after.storage items := by
  refine (yields_computeCell hstate hpins room hin hnamed hload).bind fun register s items h => ?_
  obtain ⟨hstays, code, rfl, steady, hvalued⟩ := h
  have hput := hstore register
  refine (yields_instruct (hstays.ranged hstate) hput.fits hput.steady.plain).imp
    fun _ after items h => ?_
  obtain ⟨halike, hstorage, rfl⟩ := h
  refine ⟨hstays.trans (.of_alike (hstays.ranged hstate) halike hstorage), code ++ [store register],
    ?_, fun i hi => ?_, fun id hid => ?_, fun mode core hc apart apart' => ?_⟩
  · rw [straight_append, hstays.alike.current]
  · rcases List.mem_append.1 hi with hi | hi
    · exact steady i hi
    · rw [List.mem_singleton.1 hi]
      exact hput.steady
  · have hcell := (hload 0).cell
    rw [hid] at hcell
    cases hcell
  · obtain ⟨⟨written, hk⟩, hvalue⟩ := hvalued mode core hc apart apart'
    rw [Core.executeAll_append, Core.executeAll_cons, Core.executeAll_nil, hstorage, ← hvalue]
    exact .of_keeps hk (hput.effect mode _ _ hk.coherent (apart.of_same hk.same))

/-! ### All destinations -/

theorem length_operands (computation : Computation) : computation.operands.length ≤ 2 := by
  cases computation <;> simp [Computation.operands]

/-- Every assignment whose destination is in range can be carried out, unless the destination is a
number. -/
theorem yields_assign (hstate : state.Ranged number) (unpinned : state.storage.Unpinned)
    {dest : Referent} (hdest : dest.InRange state.storage) (update : Update) :
    Yields number (assign dest update) state fun _ after items =>
      Stays state after ∧ Assigned dest update state.current state.storage after.storage items := by
  refine (yields_resolve update).bind fun computation state _ h => ?_
  obtain ⟨rfl, rfl, hresolves, hoperands⟩ := h
  refine (yields_reserveNamed hstate (fun r hp => absurd hp (unpinned r))
    (dest :: computation.operands)).bind fun _ s items h => ?_
  obtain ⟨code, rfl, hadv, -, hregs, howners⟩ := h
  have hranged := hadv.ranged hstate
  have hpins := hadv.pinsTo unpinned.toPins
  have room : (namedRegisters (dest :: computation.operands) ++ []).length < 13 := by
    have hnamed := length_namedRegisters (dest :: computation.operands)
    have hlength := length_operands computation
    simp only [List.length_append, List.length_cons, List.length_nil] at hnamed ⊢
    omega
  have hin : ∀ r ∈ computation.operands, r.InRange s.storage :=
    fun r hr => hadv.inRange (hoperands r hr)
  have hnamed : ∀ r, .register r ∈ computation.operands →
      s.storage.owner r = some .temporary := fun r hr => howners r (List.mem_cons_of_mem _ hr)
  -- What is carried out once the registers are held is all of it, but for the code that holds them.
  have hall : ∀ (_ : Unit) after items, Stays s after ∧
      Performed computation dest s.current s.storage after.storage items →
      Stays state after ∧ Assigned dest update state.current state.storage after.storage
        ([] ++ (straight state.current code ++ items)) :=
    fun _ after items h => ⟨hadv.stays.trans h.1, computation, hresolves,
      .of_advances (List.forall_mem_cons.2 ⟨hdest, hoperands⟩) hadv hregs h.2⟩
  rcases dest with ⟨id⟩ | ⟨register⟩ | ⟨address⟩ | ⟨address⟩ | ⟨value⟩
  · exact (yields_assignVariable hranged hpins room hin hnamed (hadv.inRange hdest)).imp hall
  · exact (yields_assignRegister hranged hpins room hin hnamed
      (howners register (List.mem_cons_self ..))).imp hall
  · exact (yields_storeCell hranged hpins room hin hnamed (Referent.fetches_memory address)
      (puts_memory address)).imp hall
  · exact (yields_storeCell hranged hpins room hin hnamed (Referent.fetches_port address)
      (puts_port address)).imp hall
  · exact .fail (.inr (.inl rfl))

end Build

end ByteBasic
