import ByteBasic.Machine.Processor

/-!
# Cycles and runs

A cycle is the same around every instruction: the devices see their ports, something happens to the
core, the devices see their ports again. `Processor.during` is a cycle with any effect in the middle,
so that code can be followed without looking at memory for every step.

* `Processor.step_of_decode`: a step executes the instruction that its word stands for.
* `Processor.during_moved`: the program counter is no concern of the devices.
* `Processor.run_of_steps`: a run ends in the halted state that some number of steps reaches.
-/

namespace ByteBasic

namespace Processor

variable {δ : Type} [Device δ]

/-- One cycle with `effect` in place of the instruction at the program counter. -/
def during (effect : Core → Core × Option StopReason) (processor : Processor δ) : Processor δ :=
  let (slots, ports) := strobe Device.beforeStep processor.slots processor.core.ports
  let (core, reason) := effect { processor.core with ports := ports }
  let (slots, ports) := strobe Device.afterStep slots core.ports
  { core := { core with ports := ports }
    cycles := processor.cycles + 1
    status := statusAfter reason
    config := processor.config
    slots := slots }

theorem cycle_eq_during (processor : Processor δ) :
    processor.cycle = processor.during fun core =>
      Core.execute processor.config.rotate (Instruction.decode (fetch processor.core))
        { core with pc := core.pc + 2 } := rfl

/-- Cycles in which nothing happens to the core, but which the devices see. -/
def idle : Nat → Processor δ → Processor δ
  | 0, processor => processor
  | count + 1, processor => idle count (processor.during fun core => (core, none))

omit [Device δ] in
/-- The processor with another program counter. -/
def moved (processor : Processor δ) (pc : Nat) : Processor δ :=
  { processor with core := { processor.core with pc := pc } }

omit [Device δ] in
theorem moved_self {processor : Processor δ} {pc : Nat} (h : processor.core.pc = pc) :
    processor.moved pc = processor := by
  subst h
  rfl

/-! ## What a cycle leaves alone -/

section Frame

variable (effect : Core → Core × Option StopReason) (processor : Processor δ)

@[simp] theorem cycles_during : (processor.during effect).cycles = processor.cycles + 1 := rfl

@[simp] theorem config_during : (processor.during effect).config = processor.config := rfl

/-- What the effect does not change in any core is unchanged by the cycle, ports apart. -/
theorem during_keeps {α : Type} (part : Core → α)
    (hports : ∀ core ports, part { core with ports := ports } = part core)
    (heffect : ∀ core, part (effect core).1 = part core) :
    part (processor.during effect).core = part processor.core := by
  simp only [during]
  rw [hports, heffect, hports]

theorem core_during : ∃ ports ports', (processor.during effect).core =
    { (effect { processor.core with ports := ports }).1 with ports := ports' } :=
  ⟨_, _, rfl⟩

/-- Whether an effect stops the machine may be read off the core before the cycle. -/
theorem status_during {reason : Option StopReason}
    (h : ∀ ports, (effect { processor.core with ports := ports }).2 = reason) :
    (processor.during effect).status = statusAfter reason := by
  simp only [during, h]

end Frame

theorem cycles_idle (count : Nat) (processor : Processor δ) :
    (processor.idle count).cycles = processor.cycles + count := by
  induction count generalizing processor with
  | zero => rfl
  | succ count ih =>
    rw [idle, ih, cycles_during]
    omega

theorem config_idle (count : Nat) (processor : Processor δ) :
    (processor.idle count).config = processor.config := by
  induction count generalizing processor with
  | zero => rfl
  | succ count ih => exact ih _

theorem status_idle (count : Nat) {processor : Processor δ} (h : processor.status = .ready) :
    (processor.idle count).status = .ready := by
  induction count generalizing processor with
  | zero => exact h
  | succ count ih => exact ih rfl

theorem idle_keeps (count : Nat) (processor : Processor δ) {α : Type} (part : Core → α)
    (hports : ∀ core ports, part { core with ports := ports } = part core) :
    part (processor.idle count).core = part processor.core := by
  induction count generalizing processor with
  | zero => rfl
  | succ count ih => rw [idle, ih, during_keeps _ _ part hports fun _ => rfl]

theorem idle_succ_last (count : Nat) (processor : Processor δ) :
    processor.idle (count + 1) = (processor.idle count).during fun core => (core, none) := by
  induction count generalizing processor with
  | zero => rfl
  | succ count ih => exact ih _

/-- The devices do not see the program counter. -/
theorem during_moved {effect effect' : Core → Core × Option StopReason}
    {processor : Processor δ} {pc pc' : Nat}
    (h : ∀ ports, effect' { processor.core with ports := ports, pc := pc } =
      ({ (effect { processor.core with ports := ports }).1 with pc := pc' },
        (effect { processor.core with ports := ports }).2)) :
    (processor.moved pc).during effect' = (processor.during effect).moved pc' := by
  simp only [during, moved, h]

/-! ## Without devices -/

/-- Without devices a cycle is its effect. -/
theorem during_bare {effect : Core → Core × Option StopReason} {processor : Processor δ}
    (bare : processor.slots = []) (ready : processor.status = .ready)
    (goes : (effect processor.core).2 = none) : processor.during effect =
      { processor with core := (effect processor.core).1, cycles := processor.cycles + 1 } := by
  simp only [during, bare, strobe, goes, ready]
  rfl

theorem idle_bare (count : Nat) {processor : Processor δ} (bare : processor.slots = [])
    (ready : processor.status = .ready) :
    processor.idle count = { processor with cycles := processor.cycles + count } := by
  induction count generalizing processor with
  | zero => rfl
  | succ count ih =>
    rw [idle, during_bare bare ready rfl, ih (by exact bare) (by exact ready)]
    simp only [Nat.add_assoc, Nat.add_comm 1]

/-! ## Steps -/

def steps : Nat → Processor δ → Processor δ
  | 0, processor => processor
  | count + 1, processor => steps count processor.step

theorem steps_add (m n : Nat) (processor : Processor δ) :
    steps (m + n) processor = steps n (steps m processor) := by
  induction m generalizing processor with
  | zero => rw [Nat.zero_add, steps]
  | succ m ih => rw [Nat.succ_add, steps, ih, steps]

theorem step_of_decode {processor : Processor δ} {instruction : Instruction}
    (ready : processor.status = .ready) (hpc : processor.core.pc < 255)
    (hcycles : processor.cycles < processor.config.maxCycles)
    (hdecode : Instruction.decode (fetch processor.core) = instruction) :
    processor.step = processor.during fun core =>
      Core.execute processor.config.rotate instruction { core with pc := core.pc + 2 } := by
  unfold step
  rw [ready]
  simp only
  rw [if_neg (by simp only [codeLimit]; omega), if_neg (by omega), cycle_eq_during, hdecode]

theorem step_of_halted {processor : Processor δ} {reason : StopReason}
    (h : processor.status = .halted reason) : processor.step = processor := by
  unfold step
  rw [h]

theorem run_of_halted {processor : Processor δ} {reason : StopReason}
    (h : processor.status = .halted reason) : processor.run = (reason, processor) := by
  rw [run]
  split <;> simp_all

theorem run_of_ready {processor : Processor δ} (h : processor.status = .ready) :
    processor.run = processor.step.run := by
  rw [run]
  split
  · simp_all
  · rfl

/-- A run ends in the halted state that some number of steps reaches. -/
theorem run_of_steps {count : Nat} {processor : Processor δ} {reason : StopReason}
    (h : (steps count processor).status = .halted reason) :
    processor.run = (reason, steps count processor) := by
  induction count generalizing processor with
  | zero => exact run_of_halted h
  | succ count ih =>
    rw [steps] at h ⊢
    cases hstatus : processor.status with
    | halted other =>
      rw [step_of_halted hstatus] at h ⊢
      exact ih h
    | ready => exact (run_of_ready hstatus).trans (ih h)

/-- One processor runs into another, in as many steps as the cycles that it counts. -/
def Reaches (before after : Processor δ) : Prop :=
  before.cycles ≤ after.cycles ∧ steps (after.cycles - before.cycles) before = after

theorem Reaches.refl (processor : Processor δ) : Reaches processor processor := by
  refine ⟨Nat.le_refl _, ?_⟩
  rw [Nat.sub_self, steps]

theorem Reaches.trans {a b c : Processor δ} (hab : Reaches a b) (hbc : Reaches b c) :
    Reaches a c := by
  obtain ⟨hle, hsteps⟩ := hab
  obtain ⟨hle', hsteps'⟩ := hbc
  refine ⟨Nat.le_trans hle hle', ?_⟩
  have hsplit : c.cycles - a.cycles = (b.cycles - a.cycles) + (c.cycles - b.cycles) := by omega
  rw [hsplit, steps_add, hsteps, hsteps']

theorem Reaches.of_step {before after : Processor δ} (h : before.step = after)
    (hcycles : after.cycles = before.cycles + 1) : Reaches before after := by
  refine ⟨by omega, ?_⟩
  rw [hcycles, Nat.add_sub_cancel_left]
  exact h

end Processor

end ByteBasic
