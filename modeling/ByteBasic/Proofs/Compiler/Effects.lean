import ByteBasic.Proofs.Code.Refinement
import ByteBasic.Proofs.Compiler.Sequencing

/-!
# What an assignment does

**Theorem (`assignment_takes_effect`).** Between two lines, take any assignment that is accepted and any
core that the storage describes. The code of the assignment runs straight through. Then the destination has
the value of the computation on what the operands held before, whatever sorts of operand they are and
whichever of them are the same; no other variable, no other port and no memory cell outside the slots of
variables has changed; and the storage describes the core again.

The one thing to leave out is an `m` operand at the slot of a variable, since the variable may be in a
register at the time.

`Core.proceed?` executes code that has to run straight through. Code of `Steady` instructions does
(`Core.proceed?_of_steady`), and then its effect is that of `Core.executeAll`.
-/

namespace ByteBasic

namespace Core

/-- Executes instructions one after the other, each with the program counter pointing past it, unless one
of them stops the machine or sends it elsewhere. -/
def proceed? (mode : RotateMode) : List Instruction → Core → Option Core
  | [], core => some core
  | instruction :: rest, core =>
    match execute mode instruction { core with pc := core.pc + 2 } with
    | (_, some _) => none
    | (after, none) => if after.pc = core.pc + 2 then proceed? mode rest after else none

/-- The program counter is no concern of steady instructions. -/
theorem executeAll_of_steady {code : List Instruction} (h : ∀ i ∈ code, i.Steady)
    (mode : RotateMode) (core : Core) (pc : Nat) :
    executeAll mode code { core with pc := pc } = { executeAll mode code core with pc := pc } := by
  induction code generalizing core with
  | nil => rfl
  | cons i rest ih =>
    obtain ⟨hi, hrest⟩ := List.forall_mem_cons.1 h
    rw [executeAll_cons, execute_plain hi.plain, ih hrest, executeAll_cons]

theorem proceed?_of_steady {code : List Instruction} (h : ∀ i ∈ code, i.Steady)
    (mode : RotateMode) (core : Core) : proceed? mode code core =
      some { executeAll mode code core with pc := core.pc + 2 * code.length } := by
  induction code generalizing core with
  | nil => rfl
  | cons i rest ih =>
    obtain ⟨hi, hrest⟩ := List.forall_mem_cons.1 h
    obtain ⟨hgoes, -⟩ := execute_of_steady hi mode core
    have hstep : execute mode i { core with pc := core.pc + 2 } =
        ({ (execute mode i core).1 with pc := core.pc + 2 }, none) := by
      rw [execute_plain hi.plain, hgoes]
    simp only [proceed?, hstep, if_true]
    rw [ih hrest, executeAll_of_steady hrest]
    simp only [executeAll_cons, List.length_cons, Option.some.injEq]
    congr 1
    omega

end Core

/-- Every variable that is in a register and not modified there has the same value in its slot. -/
def Storage.Clean (storage : Storage) (core : Core) : Prop :=
  ∀ id register, (storage.get id).register = some register → (storage.get id).modified = false →
    core.reg register.byte = core.mem (storage.get id).address

open Build (Resolves straight)

/-- **Assignments take effect.** In every session that is reached, whatever assignment is accepted there:
its code, in whatever state it is executed that agrees with what is recorded of the registers, goes straight
through and gives the destination the value of the computation. -/
theorem assignment_takes_effect {lines : List String} {count : Nat} {session : Session}
    (h : Session.Reached lines count session) {dest : String} {update : Update} {line : Nat}
    (accepted : ((Build.statement (.assign dest update) line).run session.state).result = .ok ()) :
    let state := session.state
    let outcome := (Build.statement (.assign dest update) line).run state
    let after := outcome.state.storage
    ∃ target computation code,
      Referent.ofOperand state.storage state.current (.word dest) = .ok target ∧
      Resolves state.storage state.current update computation ∧
      streamed outcome.output = straight state.current code ∧
      state.storage.SameVars after ∧
      ∀ mode core, state.storage.Clean core → target.Apart state.storage →
        computation.Apart state.storage →
        ∃ core', core.proceed? mode code = some { core' with pc := core.pc + 2 * code.length } ∧
          Storage.Updates target (computation.value (Referent.value state.storage core)
            (target.value state.storage core)) state.storage core after core' ∧
          (Storage.endStatement.run after).state.Coherent core' := by
  intro state outcome after
  have hinRange := h.inRange
  have hyields : Build.Yields count (Build.statement (.assign dest update) line) state
      fun _ s items => Build.Stays state s ∧ ∃ target,
        Referent.ofOperand state.storage state.current (.word dest) = .ok target ∧
        Build.Assigned target update state.current state.storage s.storage items := by
    refine (Build.yields_referent (.word dest)).bind fun target _ _ h => ?_
    obtain ⟨rfl, rfl, hin, hof⟩ := h
    exact (Build.yields_assign hinRange.state hinRange.unpinned hin update).imp
      fun _ s items h => ⟨h.1, target, hof, h.2⟩
  obtain ⟨-, hresult⟩ := hyields
  rw [accepted] at hresult
  obtain ⟨hstays, target, hof, computation, hresolves, code, hitems, steady, -, hupdates⟩ := hresult
  refine ⟨target, computation, code, hof, hresolves, hitems, hstays.same,
    fun mode core clean apart apart' => ?_⟩
  have hcoherent : state.storage.Coherent core :=
    ⟨hinRange.state.tidy.agrees, hinRange.state.tidy.distinct, clean⟩
  have hupdate := hupdates mode core hcoherent apart apart'
  exact ⟨core.executeAll mode code, Core.proceed?_of_steady steady mode core, hupdate,
    (Storage.keeps_endStatement hupdate.coherent).coherent⟩

theorem ok_of_toOption {ε α : Type} {result : Except ε α} {a : α} (h : result.toOption = some a) :
    result = .ok a := by
  cases result with
  | error e => cases h
  | ok b => exact congrArg _ (Option.some.inj h)

/-- A register that holds a variable is named as an operand beside that variable and as the
destination. The variable keeps its value all the same. -/
theorem assignment_takes_effect_cached :
    let state := (Session.new.line "var x = 7" 1).2.endStatement.state
    let outcome := (Build.statement (.assign "r1" (.combine (.word "x") .add (.word "r1"))) 2).run state
    let core := Core.initial.setReg 1 7
    (state.storage.get 0).register = some 1 ∧ state.storage.value core 0 = 7 ∧
    ∃ code core', streamed outcome.output = straight state.current code ∧
      core.proceed? .singleBit code = some { core' with pc := core.pc + 2 * code.length } ∧
      core'.reg 1 = 14 ∧ outcome.state.storage.value core' 0 = 7 := by
  intro state outcome core
  have hline : (Session.new.line "var x = 7" 1).1.toOption = some () := by decide +kernel
  have hreached : Session.Reached ["var x = 7"] 1 (Session.new.line "var x = 7" 1).2.endStatement :=
    .line .new rfl (Prod.ext (ok_of_toOption hline) rfl)
  have haccepted : outcome.result.toOption = some () := by decide +kernel
  have hregister : (state.storage.get 0).register = some 1 := by decide +kernel
  have hlength : state.storage.vars.length = 1 := by decide +kernel
  have hmodified : (state.storage.get 0).modified = true := by decide +kernel
  have hvalue : state.storage.value core 0 = 7 := by decide +kernel
  -- The one variable there is modified, so that its slot says nothing.
  have clean : state.storage.Clean core := by
    intro id register hr hm
    have hid : id < 1 := hlength ▸ Storage.lt_of_register hr
    obtain rfl : id = 0 := Nat.lt_one_iff.1 hid
    rw [hmodified] at hm
    cases hm
  have htarget : (Referent.ofOperand state.storage state.current (.word "r1")).toOption =
      some (.register 1) := by decide +kernel
  have hx : (Referent.ofOperand state.storage state.current (.word "x")).toOption =
      some (.variable 0) := by decide +kernel
  obtain ⟨target, computation, code, hof, ⟨left, right, rfl, hleft, hright⟩, hitems, -, heffect⟩ :=
    assignment_takes_effect hreached (ok_of_toOption haccepted)
  rw [hof] at htarget
  rw [hleft] at hx
  obtain rfl : right = target := Except.ok.inj (hright.symm.trans hof)
  cases htarget
  cases hx
  have apart : (Computation.combine (.variable 0) .add (.register 1)).Apart state.storage := by
    simp [Computation.Apart, Computation.operands, Referent.Apart]
  -- What the line refers to is known now, and seven is added to seven.
  obtain ⟨core', hproceed, hupdates, -⟩ :=
    heffect .singleBit core clean (by simp [Referent.Apart]) apart
  refine ⟨hregister, hvalue, code, core', hitems, hproceed, ?_, ?_⟩
  · have hsum : core'.reg (1 : Register).byte = state.storage.value core 0 + core.reg 1 :=
      hupdates.value
    rw [hvalue] at hsum
    exact hsum
  · rw [hupdates.others 0 (by rw [hlength]; exact Nat.one_pos) (by simp), hvalue]

end ByteBasic
