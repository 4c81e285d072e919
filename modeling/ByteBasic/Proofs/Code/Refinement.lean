import ByteBasic.Proofs.Code.Patching
import ByteBasic.Proofs.Code.Stepping

/-!
# The bytes refine the items

A processor that has the bytes of laid out items at the start of its memory does, in as many steps
as the items take cycles, what the items say. The relation between the two machines is an equation:
the processor is the one of the items, with the offset of the next item as its program counter
(`Machine.located`). It holds at every boundary between items.

The argument goes item by item. The code of the next item stands at its offset in memory (`CodeAt`),
each of its words is one cycle (`reaches_cycle`), and a comparison makes its tests in a row
(`reaches_tests`).

**Theorem (`bytes_refine_items`).** A run of the items from the first one is a run of the processor
from offset zero.
-/

namespace ByteBasic

/-! ## Comparisons by tests -/

/-- A comparison holds or fails as its tests say. -/
theorem pick_eq_tests (comparison : Comparison) (value zero : UInt8) (accept reject : Target) :
    (if comparison.holds value zero then accept else reject) =
      if comparison.tests.any fun test => Core.jumpTaken test value zero then
        comparison.verdict.pick accept reject
      else comparison.verdict.opposite.pick accept reject := by
  have hle : value ≤ zero ↔ value < zero ∨ value = zero := by
    rw [UInt8.le_iff_toNat_le, UInt8.lt_iff_toNat_lt, ← UInt8.toNat_inj]
    omega
  have hgt : zero < value ↔ ¬ (value < zero ∨ value = zero) := by
    rw [UInt8.lt_iff_toNat_lt, UInt8.lt_iff_toNat_lt, ← UInt8.toNat_inj]
    omega
  have hge : zero ≤ value ↔ ¬ value < zero := by
    rw [UInt8.le_iff_toNat_le, UInt8.lt_iff_toNat_lt]
    omega
  by_cases hless : value < zero <;> by_cases hequal : value = zero <;> cases comparison <;>
    simp [Comparison.holds, Comparison.tests, Comparison.verdict, Verdict.pick, Verdict.opposite,
      Core.jumpTaken, hle, hgt, hge, hless, hequal]

/-- The number of tests that are made, up to the first that is taken. -/
def testsMade (tests : List JumpTest) (value zero : UInt8) : Nat :=
  match tests.findIdx? fun test => Core.jumpTaken test value zero with
  | some taken => taken + 1
  | none => tests.length

theorem testsMade_cons_taken {test : JumpTest} {tests : List JumpTest} {value zero : UInt8}
    (h : Core.jumpTaken test value zero = true) : testsMade (test :: tests) value zero = 1 := by
  simp [testsMade, List.findIdx?_cons, h]

theorem testsMade_cons_passed {test : JumpTest} {tests : List JumpTest} {value zero : UInt8}
    (h : Core.jumpTaken test value zero = false) :
    testsMade (test :: tests) value zero = testsMade tests value zero + 1 := by
  simp only [testsMade, List.findIdx?_cons, h]
  cases tests.findIdx? fun test => Core.jumpTaken test value zero <;> rfl

/-- A comparison takes its tests, and one jump more if none is taken and it has a label to go to. -/
theorem cycles_eq_testsMade (comparison : Comparison) (value zero : UInt8) (otherwise : Target) :
    comparison.cycles value zero otherwise = testsMade comparison.tests value zero +
      if !(comparison.tests.any fun test => Core.jumpTaken test value zero) &&
        otherwise.isLabel then 1 else 0 := by
  unfold Comparison.cycles testsMade
  have hany : (comparison.tests.findIdx? fun test => Core.jumpTaken test value zero).isSome =
      comparison.tests.any fun test => Core.jumpTaken test value zero := List.findIdx?_isSome
  rw [← hany]
  cases comparison.tests.findIdx? fun test => Core.jumpTaken test value zero with
  | some taken => rfl
  | none => rfl

/-- A comparison takes no more cycles than its item has words. -/
theorem cycles_le_words (comparison : Comparison) (value zero : UInt8) (register : UInt8)
    (accept reject : Target) (line : Nat) :
    comparison.cycles value zero (comparison.verdict.opposite.pick accept reject) ≤
      (Item.compare comparison register accept reject line).words := by
  unfold Comparison.cycles
  split
  · next taken htaken =>
    obtain ⟨hlt, -⟩ := List.findIdx?_eq_some_iff_getElem.1 htaken
    exact Nat.le_trans hlt (Nat.le_add_right _ _)
  · exact Nat.le_refl _

/-! ## Code in memory -/

/-- Memory starts with these bytes. -/
def Holds (memory : Bank 256) (bytes : List UInt8) : Prop :=
  ∀ address, address < bytes.length → bytes[address]? = some (memory.read address)

theorem read_writeAll_of_lt {n : Nat} (bank : Bank n) {start address : Nat} (bytes : List UInt8)
    (h : address < start) : (bank.writeAll start bytes).read address = bank.read address := by
  induction bytes generalizing bank start with
  | nil => rfl
  | cons byte bytes ih =>
    rw [Bank.writeAll, ih _ (Nat.lt_succ_of_lt h), Bank.read_write_of_ne _ (by omega)]

theorem read_writeAll {n : Nat} (bank : Bank n) (start : Nat) {bytes : List UInt8} {index : Nat}
    {byte : UInt8} (hfit : start + bytes.length ≤ n) (h : bytes[index]? = some byte) :
    (bank.writeAll start bytes).read (start + index) = byte := by
  induction bytes generalizing bank start index with
  | nil => simp at h
  | cons first bytes ih =>
    rw [List.length_cons] at hfit
    rw [Bank.writeAll]
    cases index with
    | zero =>
      have hfirst := read_writeAll_of_lt (bank.write start first) bytes (Nat.lt_add_one start)
      rw [Bank.read_write_self _ (by omega)] at hfirst
      exact hfirst.trans (by simpa using h)
    | succ index =>
      rw [show start + (index + 1) = start + 1 + index by omega]
      exact ih _ (start + 1) (by omega) (by simpa using h)

theorem holds_writeAll (memory : Bank 256) {bytes : List UInt8} (h : bytes.length ≤ 256) :
    Holds (memory.writeAll 0 bytes) bytes := by
  intro address hlt
  have hbyte : bytes[address]? = some bytes[address] := List.getElem?_eq_getElem hlt
  have hread := read_writeAll memory 0 (by omega) hbyte
  rw [Nat.zero_add] at hread
  rw [hbyte, hread]

/-- Memory has the words of these instructions, one after the other, from an address on. -/
def CodeAt (memory : Bank 256) : Nat → List Instruction → Prop
  | _, [] => True
  | address, instruction :: rest =>
    address < 255 ∧
      Instruction.decode (wordOfBytes (memory.read address) (memory.read (address + 1))) =
        instruction ∧
      CodeAt memory (address + 2) rest

theorem codeAt_of_holds {memory : Bank 256} {bytes : List UInt8}
    {before code after : List Instruction} (hsize : bytes.length ≤ 256)
    (hholds : Holds memory bytes) (hbytes : bytes = imageBytes (before ++ code ++ after))
    (hfits : ∀ instruction ∈ code, instruction.Fits)
    (known : ∀ instruction ∈ code, ∀ word, instruction ≠ .unknown word) :
    CodeAt memory (2 * before.length) code := by
  induction code generalizing before with
  | nil => trivial
  | cons instruction code ih =>
    have hword : bytes = imageBytes before ++
        (UInt8.ofNat (instruction.word.toNat / 256) :: instruction.word.toUInt8 ::
          imageBytes (code ++ after)) := by
      rw [hbytes, List.append_assoc, imageBytes_append]
      rfl
    have hlength := congrArg List.length hword
    rw [List.length_append, length_imageBytes, List.length_cons, List.length_cons] at hlength
    -- The two bytes of the first word, at twice the number of words before it.
    have hhigh := hholds (2 * before.length) (by omega)
    have hlow := hholds (2 * before.length + 1) (by omega)
    rw [hword, List.getElem?_append_right (by have := length_imageBytes before; omega),
      length_imageBytes] at hhigh hlow
    simp only [Nat.sub_self, Nat.add_sub_cancel_left, List.getElem?_cons_zero,
      List.getElem?_cons_succ, Option.some.injEq] at hhigh hlow
    refine ⟨by omega, ?_, ?_⟩
    · rw [← hhigh, ← hlow, wordOfBytes_bytesOfWord]
      exact Instruction.decode_word (hfits _ (List.mem_cons_self ..))
        (known _ (List.mem_cons_self ..))
    · have hbytes' : bytes = imageBytes ((before ++ [instruction]) ++ code ++ after) := by
        simpa using hbytes
      have hrest := ih hbytes' (fun i hi => hfits i (List.mem_cons_of_mem _ hi))
        (fun i hi => known i (List.mem_cons_of_mem _ hi))
      rw [List.length_append, List.length_singleton, Nat.mul_add] at hrest
      exact hrest

theorem codeAt_drop {memory : Bank 256} {address count : Nat} {first rest : List Instruction}
    (h : CodeAt memory address (first ++ rest)) (hcount : count = first.length) :
    CodeAt memory (address + 2 * count) rest := by
  subst hcount
  induction first generalizing address with
  | nil => exact h
  | cons instruction first ih =>
    rw [List.length_cons, show address + 2 * (first.length + 1) = address + 2 + 2 * first.length by
      omega]
    exact ih h.2.2

/-- A place that a byte can hold is read back from it. -/
theorem toNat_ofNat_of_le {place : Nat} (h : place ≤ 255) : (UInt8.ofNat place).toNat = place := by
  rw [UInt8.toNat_ofNat']
  exact Nat.mod_eq_of_lt (Nat.lt_succ_of_le h)

/-! ## Words as cycles -/

namespace Processor

variable {δ : Type} [Device δ] {processor : Processor δ} {pc : Nat}

/-- The word at the program counter takes one cycle, with the effect of its instruction. -/
theorem reaches_cycle {pc' : Nat} {instruction : Instruction} {rest : List Instruction}
    {effect : Core → Core × Option StopReason} (ready : processor.status = .ready)
    (hcode : CodeAt processor.core.memory pc (instruction :: rest))
    (hcycles : processor.cycles < processor.config.maxCycles)
    (heffect : ∀ ports, Core.execute processor.config.rotate instruction
        { processor.core with ports := ports, pc := pc + 2 } =
      ({ (effect { processor.core with ports := ports }).1 with pc := pc' },
        (effect { processor.core with ports := ports }).2)) :
    Reaches (processor.moved pc) ((processor.during effect).moved pc') := by
  obtain ⟨hpc, hdecode, -⟩ := hcode
  have hready : (processor.moved pc).status = .ready := ready
  have hstep := step_of_decode hready hpc hcycles hdecode
  have hmoved : during (fun core => Core.execute processor.config.rotate instruction
      { core with pc := core.pc + 2 }) (processor.moved pc) = (processor.during effect).moved pc' :=
    during_moved heffect
  exact .of_step (hstep.trans hmoved) rfl

/-- A jump takes one cycle in which nothing happens but that the place changes. -/
theorem reaches_jump {test : JumpTest} {register target : UInt8} {rest : List Instruction}
    (ready : processor.status = .ready)
    (hcode : CodeAt processor.core.memory pc (.jump test register target :: rest))
    (hcycles : processor.cycles < processor.config.maxCycles) :
    Reaches (processor.moved pc) ((processor.idle 1).moved
      (if Core.jumpTaken test (processor.core.reg register) (processor.core.reg 0) then
        target.toNat else pc + 2)) := by
  refine reaches_cycle ready hcode hcycles fun ports => ?_
  have hregister : ∀ r : UInt8, Core.reg { processor.core with ports := ports, pc := pc + 2 } r =
      processor.core.reg r := fun _ => rfl
  rw [Core.execute, hregister, hregister]
  split <;> rfl

/-- A jump that compares `r0` with itself is always taken. -/
theorem reaches_goto {target : UInt8} {rest : List Instruction} (ready : processor.status = .ready)
    (hcode : CodeAt processor.core.memory pc (.jump .equal 0 target :: rest))
    (hcycles : processor.cycles < processor.config.maxCycles) :
    Reaches (processor.moved pc) ((processor.idle 1).moved target.toNat) := by
  have h := reaches_jump ready hcode hcycles
  rwa [if_pos (by simp [Core.jumpTaken])] at h

theorem reaches_push {register : UInt8} {rest : List Instruction}
    (ready : processor.status = .ready)
    (hcode : CodeAt processor.core.memory pc
      (.move (.general register) (.special .stack) :: rest))
    (hcycles : processor.cycles < processor.config.maxCycles) :
    Reaches (processor.moved pc)
      ((processor.during (Machine.push (processor.core.reg register))).moved (pc + 2)) := by
  refine reaches_cycle ready hcode hcycles fun ports => ?_
  have hregister : Core.reg { processor.core with ports := ports, pc := pc + 2 } register =
      processor.core.reg register := rfl
  simp only [Core.execute, Core.readSide, hregister, Machine.push, Core.writeSide]
  split <;> rfl

/-- A push that does not overflow the stack lets the machine go on. -/
theorem ready_of_push {value : UInt8}
    (h : (processor.during (Machine.push value)).status ≠ .halted .stackOverflow) :
    (processor.during (Machine.push value)).status = .ready := by
  have hstatus : ∀ reason, (∀ ports, (Machine.push value { processor.core with ports := ports }).2 =
      reason) → (processor.during (Machine.push value)).status = statusAfter reason :=
    fun reason => status_during _ _
  by_cases hfull : processor.core.stack.length ≥ stackLimit
  · rw [hstatus (some .stackOverflow) fun ports => by simp [Machine.push, Core.writeSide, hfull]] at h
    exact absurd rfl h
  · exact hstatus none fun ports => by simp [Machine.push, Core.writeSide, hfull]

theorem memory_push (value : UInt8) :
    (processor.during (Machine.push value)).core.memory = processor.core.memory :=
  during_keeps _ _ (fun core => core.memory) (fun _ _ => rfl) fun core => by
    simp only [Machine.push, Core.writeSide]
    split <;> rfl

/-- Tests in a row go to the target with the first that is taken, and behind them if none is. -/
theorem reaches_tests {tests : List JumpTest} {register target : UInt8} {rest : List Instruction}
    (ready : processor.status = .ready)
    (hcode : CodeAt processor.core.memory pc
      (tests.map (fun test => .jump test register target) ++ rest))
    (hcycles : processor.cycles + testsMade tests (processor.core.reg register)
      (processor.core.reg 0) ≤ processor.config.maxCycles) :
    Reaches (processor.moved pc)
        ((processor.idle (testsMade tests (processor.core.reg register)
          (processor.core.reg 0))).moved
          (if tests.any fun test =>
            Core.jumpTaken test (processor.core.reg register) (processor.core.reg 0) then
            target.toNat else pc + 2 * tests.length)) ∧
      CodeAt processor.core.memory (pc + 2 * tests.length) rest := by
  induction tests generalizing processor pc with
  | nil => exact ⟨.refl _, hcode⟩
  | cons test tests ih =>
    have hnext : (processor.idle 1).status = .ready := rfl
    have hregister : ∀ r, (processor.idle 1).core.reg r = processor.core.reg r :=
      fun r => idle_keeps 1 processor (fun core => core.reg r) fun _ _ => rfl
    have hend : pc + 2 * (test :: tests).length = pc + 2 + 2 * tests.length := by
      rw [List.length_cons]
      omega
    rw [List.any_cons, hend]
    cases htaken : Core.jumpTaken test (processor.core.reg register) (processor.core.reg 0) with
    | true =>
      -- The tests behind one that is taken are not made.
      rw [testsMade_cons_taken htaken] at hcycles ⊢
      have hfirst := reaches_jump ready hcode (by omega)
      rw [if_pos htaken] at hfirst
      refine ⟨hfirst, codeAt_drop hcode.2.2 ?_⟩
      rw [List.length_map]
    | false =>
      rw [testsMade_cons_passed htaken] at hcycles ⊢
      have hfirst := reaches_jump ready hcode (by omega)
      rw [if_neg (by simp [htaken])] at hfirst
      have hih := ih hnext hcode.2.2 (by
        rw [hregister, hregister, config_idle, cycles_idle]
        omega)
      rw [hregister, hregister] at hih
      exact ⟨hfirst.trans hih.1, hih.2⟩

/-- A comparison goes where it says: to the target of its tests with the first that is taken, and to the
other one behind them. -/
theorem reaches_compare {comparison : Comparison} {register : UInt8} {accept reject : Target}
    {line : Nat} {place : LabelId → Nat} (ready : processor.status = .ready)
    (hcode : CodeAt processor.core.memory pc
      ((Item.compare comparison register accept reject line).instructions place pc))
    (near : ∀ operand ∈ (Item.compare comparison register accept reject line).operands place pc,
      operand ≤ 255)
    (hcycles : processor.cycles + comparison.cycles (processor.core.reg register)
      (processor.core.reg 0) (comparison.verdict.opposite.pick accept reject) ≤
        processor.config.maxCycles) :
    Reaches (processor.moved pc)
      ((processor.idle (comparison.cycles (processor.core.reg register) (processor.core.reg 0)
        (comparison.verdict.opposite.pick accept reject))).moved
          ((if comparison.holds (processor.core.reg register) (processor.core.reg 0) then accept
            else reject).offset place
              (pc + (Item.compare comparison register accept reject line).size))) := by
  simp only [Item.instructions] at hcode
  have htarget := toNat_ofNat_of_le (near _ (List.mem_cons_self ..))
  rw [cycles_eq_testsMade] at hcycles ⊢
  rw [pick_eq_tests]
  obtain ⟨htests, hrest⟩ := reaches_tests ready hcode (by omega)
  rw [htarget] at htests
  by_cases hany : (comparison.tests.any fun test => Core.jumpTaken test
      (processor.core.reg register) (processor.core.reg 0)) = true
  · -- One of the tests is taken, and nothing behind it is executed.
    rw [if_pos hany] at htests ⊢
    simp only [hany, Bool.not_true, Bool.false_and, Bool.false_eq_true, if_false, Nat.add_zero]
    exact htests
  · rw [if_neg hany] at htests ⊢
    simp only [Bool.not_eq_true] at hany
    simp only [hany, Bool.not_false, Bool.true_and] at hcycles ⊢
    have hsize : (Item.compare comparison register accept reject line).size = 2 *
        (comparison.tests.length +
          if (comparison.verdict.opposite.pick accept reject).isLabel then 1 else 0) := rfl
    have hother := toNat_ofNat_of_le (near _
      (List.mem_cons_of_mem _ (List.mem_singleton_self _)))
    cases hotherwise : comparison.verdict.opposite.pick accept reject with
    | next =>
      rw [hotherwise] at hsize
      rw [Target.offset, hsize]
      exact htests
    | label id =>
      rw [hotherwise] at hrest hother hcycles
      rw [Target.offset] at hother
      -- None of the tests is taken, and the jump behind them always is.
      have hgoto := reaches_goto (status_idle (testsMade comparison.tests
        (processor.core.reg register) (processor.core.reg 0)) ready)
        (by rw [idle_keeps _ _ (fun core => core.memory) fun _ _ => rfl]; exact hrest)
        (by
          rw [config_idle, cycles_idle]
          simp only [Target.isLabel, if_true] at hcycles
          omega)
      rw [hother] at hgoto
      have hlast : ∀ count, processor.idle (count + if (Target.label id).isLabel then 1 else 0) =
          (processor.idle count).idle 1 :=
        fun count => idle_succ_last count processor
      rw [hlast]
      exact htests.trans hgoto

end Processor

/-! ## Places of items -/

section Places

variable {items : List Item} {place : LabelId → Nat} {index : Nat} {item : Item}

theorem itemOffset_of_startIndex? {offset : Nat} (h : startIndex? items offset = some index) :
    itemOffset items index = offset := by
  have hfound := List.find?_some h
  exact eq_of_beq hfound

theorem mem_operandsFrom {operand : Nat} (offset : Nat) (hitem : items[index]? = some item)
    (h : operand ∈ item.operands place (offset + itemOffset items index)) :
    operand ∈ operandsFrom place offset items := by
  induction items generalizing offset index with
  | nil => simp at hitem
  | cons first rest ih =>
    cases index with
    | zero =>
      obtain rfl : first = item := by simpa using hitem
      exact List.mem_append_left _ h
    | succ index =>
      rw [itemOffset_cons_succ, ← Nat.add_assoc] at h
      exact List.mem_append_right _ (ih (offset + first.size) (by simpa using hitem) h)

/-- Only an instruction item can stand for a word that means nothing. -/
theorem known_of_mem_instructions {offset : Nat} {instruction : Instruction}
    (plain : ∀ i, item = .instruction i → i.Plain)
    (h : instruction ∈ item.instructions place offset) (word : UInt16) :
    instruction ≠ .unknown word := by
  rintro rfl
  cases item with
  | instruction i =>
    obtain rfl : _ = i := List.mem_singleton.1 h
    exact plain _ rfl
  | compare comparison register accept reject line =>
    rcases List.mem_append.1 h with h | h
    · obtain ⟨test, -, heq⟩ := List.mem_map.1 h
      cases heq
    · cases hother : comparison.verdict.opposite.pick accept reject <;>
        rw [hother] at h <;> simp [Target.jumpOtherwise] at h
  | _ => simp [Item.instructions] at h

theorem Assembled.codeAt {size : Nat} {bytes : List UInt8} {memory : Bank 256}
    (h : Assembled items size place bytes) (hlength : bytes.length ≤ 256)
    (hitem : items[index]? = some item) (plain : ∀ i, item = .instruction i → i.Plain)
    (hholds : Holds memory bytes) :
    CodeAt memory (itemOffset items index) (item.instructions place (itemOffset items index)) := by
  obtain ⟨before, after, hcode, hbefore⟩ := assembleFrom_split place 0 hitem
  rw [Nat.zero_add] at hcode
  rw [← hbefore]
  have hbytes : bytes = imageBytes
      (before ++ item.instructions place (2 * before.length) ++ after) := by
    rw [h.bytes_eq, hcode, hbefore]
  refine codeAt_of_holds hlength hholds hbytes (fun i hi => ?_) fun i hi => ?_
  · rw [hbefore] at hi
    exact h.fits i (by rw [hcode]; simp [hi])
  · exact known_of_mem_instructions plain hi

theorem Assembled.operand_le {size operand : Nat} {bytes : List UInt8}
    (h : Assembled items size place bytes) (hitem : items[index]? = some item)
    (hoperand : operand ∈ item.operands place (itemOffset items index)) : operand ≤ 255 := by
  refine h.near operand (mem_operandsFrom 0 hitem ?_)
  rw [Nat.zero_add]
  exact hoperand

end Places

/-! ## Instructions that leave the program counter alone -/

theorem execute_plain {instruction : Instruction} (plain : instruction.Plain) (mode : RotateMode)
    (core : Core) (pc : Nat) :
    Core.execute mode instruction { core with pc := pc } =
      ({ (Core.execute mode instruction core).1 with pc := pc },
        (Core.execute mode instruction core).2) := by
  cases instruction with
  | jump test register target => exact plain.elim
  | unknown word => exact plain.elim
  | alu op d a b => cases op <;> rfl
  | move source dest =>
    obtain ⟨hsource, hdest⟩ := plain
    -- What is read does not depend on the program counter, and nor does where it is written.
    have hread : Core.readSide { core with pc := pc } source =
        ((core.readSide source).1, { (core.readSide source).2 with pc := pc }) := by
      cases source with
      | general r => rfl
      | special r =>
        cases r with
        | programCounter => exact absurd rfl hsource
        | exitCode => rfl
        | stack =>
          unfold Core.readSide
          simp only
          split <;> simp_all
    have hwrite : ∀ (core : Core) value, Core.writeSide { core with pc := pc } dest value =
        ({ (core.writeSide dest value).1 with pc := pc }, (core.writeSide dest value).2) := by
      intro core value
      cases dest with
      | general r => rfl
      | special r =>
        cases r with
        | programCounter => exact absurd rfl hdest
        | exitCode => rfl
        | stack =>
          unfold Core.writeSide
          simp only
          split <;> rfl
    simp only [Core.execute, hread, hwrite]
  | _ => rfl

theorem Core.execute_of_steady {instruction : Instruction} (h : instruction.Steady) (mode : RotateMode)
    (core : Core) : (Core.execute mode instruction core).2 = none ∧
      (Core.execute mode instruction core).1.pc = core.pc := by
  cases instruction with
  | move source dest =>
    rcases source with _ | _ <;> rcases dest with _ | _ <;>
      first | exact ⟨rfl, rfl⟩ | exact h.elim
  | alu op d a b => cases op <;> exact ⟨rfl, rfl⟩
  | jump | halt | unknown => exact h.elim
  | _ => exact ⟨rfl, rfl⟩

theorem holds_execute {instruction : Instruction} {bytes : List UInt8} {core : Core}
    (plain : instruction.Plain) (hstore : instruction.storesBelow bytes.length = false)
    (h : Holds core.memory bytes) (mode : RotateMode) :
    Holds (Core.execute mode instruction core).1.memory bytes := by
  cases instruction with
  | store register address =>
    intro other hlt
    have hne : address.toNat ≠ other := by
      simp only [Instruction.storesBelow, decide_eq_false_iff_not] at hstore
      omega
    rw [h other hlt]
    simp only [Core.execute, Core.setMem, Bank.read_write_of_ne _ hne]
  | alu op d a b => cases op <;> exact h
  | move source dest =>
    have hread : (core.readSide source).2.memory = core.memory := by
      unfold Core.readSide
      split <;> first | rfl | (split <;> rfl)
    have hwrite : ∀ (core : Core) value, (core.writeSide dest value).1.memory = core.memory := by
      intro core value
      unfold Core.writeSide
      split <;> first | rfl | (split <;> rfl)
    rw [show (Core.execute mode (.move source dest) core).1.memory = core.memory from
      (hwrite _ _).trans hread]
    exact h
  | jump test register target => exact plain.elim
  | _ => exact h

/-! ## Items -/

namespace Machine

variable {δ : Type} [Device δ]

omit [Device δ] in
/-- The processor of the machine, at the offset of the next item. -/
def located (items : List Item) (machine : Machine δ) : Processor δ :=
  machine.processor.moved (itemOffset items machine.index)

/-- The bytes have taken the processor where the items took the machine. -/
structure Follows (items : List Item) (bytes : List UInt8) (before after : Machine δ) : Prop where
  reaches : Processor.Reaches (before.located items) (after.located items)
  memory : Holds after.processor.core.memory bytes
  config : after.processor.config = before.processor.config

theorem Follows.trans {items : List Item} {bytes : List UInt8} {a b c : Machine δ}
    (hab : Follows items bytes a b) (hbc : Follows items bytes b c) : Follows items bytes a c :=
  ⟨hab.reaches.trans hbc.reaches, hbc.memory, hbc.config.trans hab.config⟩

omit [Device δ] in
theorem continueAt_eq_some {index : Nat} {processor : Processor δ} {machine : Machine δ}
    (h : continueAt index processor = some machine) :
    processor.status ≠ .halted .stackOverflow ∧ machine = ⟨index, processor⟩ := by
  unfold continueAt at h
  split at h
  · cases h
  · next hstatus => exact ⟨hstatus, (Option.some.inj h).symm⟩

theorem cycles_le_of_step {items : List Item} {size : Nat} {machine after : Machine δ}
    (h : machine.step items size = some after) :
    machine.processor.cycles ≤ after.processor.cycles := by
  unfold step at h
  split at h
  case h_2 => cases h
  case h_1 item hstatus hitem =>
    cases item with
    | label id line =>
      cases h
      exact Nat.le_refl _
    | instruction i =>
      simp only [perform] at h
      split at h
      · cases h
      · obtain ⟨-, rfl⟩ := continueAt_eq_some h
        exact Nat.le_succ _
    | call main line =>
      simp only [perform, Option.bind_eq_bind, Option.bind_eq_some_iff] at h
      obtain ⟨index, -, pushed, hpushed, hafter⟩ := h
      obtain ⟨-, rfl⟩ := continueAt_eq_some hpushed
      cases hafter
      rw [Processor.cycles_idle]
      simp only [Processor.cycles_during]
      omega
    | halt =>
      cases h
      exact Nat.le_succ _
    | ret =>
      simp only [perform, Option.bind_eq_bind, Option.bind_eq_some_iff] at h
      obtain ⟨index, -, hafter⟩ := h
      cases hafter
      exact Nat.le_succ _
    -- Jumps and comparisons are idle cycles and a change of place.
    | _ =>
      simp only [perform, Option.bind_eq_bind, Option.bind_eq_some_iff] at h
      obtain ⟨index, -, hafter⟩ := h
      cases hafter
      rw [Processor.cycles_idle]
      exact Nat.le_add_right _ _

theorem cycles_le_of_runFor {items : List Item} {size count : Nat} {machine after : Machine δ}
    (h : machine.runFor items size count = some after) :
    machine.processor.cycles ≤ after.processor.cycles := by
  induction count generalizing machine with
  | zero =>
    cases h
    exact Nat.le_refl _
  | succ count ih =>
    obtain ⟨mid, hstep, hrest⟩ := Option.bind_eq_some_iff.1 h
    exact Nat.le_trans (cycles_le_of_step hstep) (ih hrest)

/-! ## Following the items -/

/-- What the bytes of items provide for every one of them. -/
structure Program (items : List Item) (place : LabelId → Nat) (bytes : List UInt8) : Prop where
  code : ∀ {index : Nat} {item : Item} {memory : Bank 256}, items[index]? = some item →
    Holds memory bytes →
    CodeAt memory (itemOffset items index) (item.instructions place (itemOffset items index))
  near : ∀ {index : Nat} {item : Item} {operand : Nat}, items[index]? = some item →
    operand ∈ item.operands place (itemOffset items index) → operand ≤ 255
  placed : ∀ {label : LabelId} {index : Nat}, labelIndex? items label = some index →
    place label = itemOffset items index
  plain : ∀ {i : Instruction}, Item.instruction i ∈ items → i.Plain

theorem program_of_assembled {items : List Item} {size : Nat} {place : LabelId → Nat}
    {bytes : List UInt8} (hassembled : Assembled items size place bytes)
    (hlength : bytes.length ≤ 256) (plain : ∀ i, Item.instruction i ∈ items → i.Plain)
    (known : ∀ label line, Item.label label line ∈ items → label < size) :
    Program items place bytes where
  code hitem hholds := hassembled.codeAt hlength hitem
    (fun i hi => plain i (by rw [← hi]; exact List.mem_of_getElem? hitem)) hholds
  near hitem hoperand := hassembled.operand_le hitem hoperand
  placed {label index} hindex := by
    obtain ⟨line, hitem⟩ := getElem?_of_labelIndex? hindex
    exact hassembled.placed index label line hitem (known label line (List.mem_of_getElem? hitem))
  plain {i} hi := plain i hi

namespace Program

variable {items : List Item} {place : LabelId → Nat} {bytes : List UInt8}
variable {machine after : Machine δ} {item : Item}

/-- An operand of an item's code is read back as the place it stands for. -/
theorem toNat_operand {index operand : Nat} (program : Program items place bytes)
    (hitem : items[index]? = some item)
    (h : operand ∈ item.operands place (itemOffset items index)) :
    (UInt8.ofNat operand).toNat = operand :=
  toNat_ofNat_of_le (program.near hitem h)

omit [Device δ] in
/-- A target is where its item is. -/
theorem offset_of_index? {index next : Nat} {target : Target}
    (program : Program items place bytes) (hitem : items[index]? = some item)
    (h : target.index? items index = some next) :
    target.offset place (itemOffset items index + item.size) = itemOffset items next := by
  cases target with
  | label id => exact program.placed h
  | next =>
    cases h
    exact (itemOffset_succ hitem).symm

theorem follows_idle {count next : Nat} (hholds : Holds machine.processor.core.memory bytes)
    (hreaches : Processor.Reaches (machine.located items)
      ((machine.processor.idle count).moved (itemOffset items next))) :
    Follows items bytes machine ⟨next, machine.processor.idle count⟩ where
  reaches := hreaches
  memory := by
    rw [Processor.idle_keeps count machine.processor (fun core => core.memory) fun _ _ => rfl]
    exact hholds
  config := Processor.config_idle count machine.processor

theorem follows_jump (program : Program items place bytes) {test : JumpTest} {register : UInt8}
    {target : LabelId} {line : Nat} (ready : machine.processor.status = .ready)
    (hitem : items[machine.index]? = some (.jump test register target line))
    (hholds : Holds machine.processor.core.memory bytes)
    (hperform : machine.perform items bytes.length (.jump test register target line) = some after)
    (hbudget : after.processor.cycles ≤ machine.processor.config.maxCycles) :
    Follows items bytes machine after := by
  simp only [perform, Option.bind_eq_bind, Option.bind_eq_some_iff] at hperform
  obtain ⟨next, hnext, hafter⟩ := hperform
  cases hafter
  rw [Processor.cycles_idle] at hbudget
  have hreaches := Processor.reaches_jump ready (program.code hitem hholds) (by omega)
  have hplace := program.offset_of_index? hitem hnext
  refine follows_idle hholds ?_
  rw [← hplace]
  split at hreaches
  next htaken =>
    rw [program.toNat_operand hitem (List.mem_singleton_self _)] at hreaches
    rw [if_pos htaken]
    exact hreaches
  next htaken =>
    rw [if_neg htaken]
    exact hreaches

theorem follows_compare (program : Program items place bytes) {comparison : Comparison}
    {register : UInt8} {accept reject : Target} {line : Nat}
    (ready : machine.processor.status = .ready)
    (hitem : items[machine.index]? = some (.compare comparison register accept reject line))
    (hholds : Holds machine.processor.core.memory bytes)
    (hperform : machine.perform items bytes.length
      (.compare comparison register accept reject line) = some after)
    (hbudget : after.processor.cycles ≤ machine.processor.config.maxCycles) :
    Follows items bytes machine after := by
  simp only [perform, Option.bind_eq_bind, Option.bind_eq_some_iff] at hperform
  obtain ⟨next, hnext, hafter⟩ := hperform
  cases hafter
  rw [Processor.cycles_idle] at hbudget
  have hreaches := Processor.reaches_compare ready (program.code hitem hholds)
    (fun _ hoperand => program.near hitem hoperand) hbudget
  rw [program.offset_of_index? hitem hnext] at hreaches
  exact follows_idle hholds hreaches

theorem follows_goto (program : Program items place bytes) {target : LabelId} {line : Nat}
    (ready : machine.processor.status = .ready)
    (hitem : items[machine.index]? = some (.goto target line))
    (hholds : Holds machine.processor.core.memory bytes)
    (hperform : machine.perform items bytes.length (.goto target line) = some after)
    (hbudget : after.processor.cycles ≤ machine.processor.config.maxCycles) :
    Follows items bytes machine after := by
  simp only [perform, Option.bind_eq_bind, Option.bind_eq_some_iff] at hperform
  obtain ⟨next, hnext, hafter⟩ := hperform
  cases hafter
  rw [Processor.cycles_idle] at hbudget
  have hreaches := Processor.reaches_goto ready (program.code hitem hholds) (by omega)
  rw [program.toNat_operand hitem (List.mem_singleton_self _), program.placed hnext] at hreaches
  exact follows_idle hholds hreaches

theorem follows_instruction (program : Program items place bytes) {i : Instruction}
    (ready : machine.processor.status = .ready)
    (hitem : items[machine.index]? = some (.instruction i))
    (hholds : Holds machine.processor.core.memory bytes)
    (hperform : machine.perform items bytes.length (.instruction i) = some after)
    (hbudget : after.processor.cycles ≤ machine.processor.config.maxCycles) :
    Follows items bytes machine after := by
  have plain : i.Plain := program.plain (List.mem_of_getElem? hitem)
  simp only [perform] at hperform
  split at hperform
  · cases hperform
  next hstore =>
    obtain ⟨-, rfl⟩ := continueAt_eq_some hperform
    refine ⟨?_, ?_, rfl⟩
    · rw [located, located, itemOffset_succ hitem]
      exact Processor.reaches_cycle ready (program.code hitem hholds) hbudget
        fun ports => execute_plain plain machine.processor.config.rotate
          { machine.processor.core with ports := ports } _
    · obtain ⟨ports, ports', hcore⟩ := Processor.core_during
        (Core.execute machine.processor.config.rotate i) machine.processor
      simp only [hcore]
      have hheld : Holds { machine.processor.core with ports := ports }.memory bytes := hholds
      exact holds_execute plain (by simpa using hstore) hheld _

theorem follows_halt (program : Program items place bytes)
    (ready : machine.processor.status = .ready) (hitem : items[machine.index]? = some .halt)
    (hholds : Holds machine.processor.core.memory bytes)
    (hperform : machine.perform items bytes.length .halt = some after)
    (hbudget : after.processor.cycles ≤ machine.processor.config.maxCycles) :
    Follows items bytes machine after := by
  cases hperform
  refine ⟨?_, hholds, rfl⟩
  rw [located, located, itemOffset_succ hitem]
  exact Processor.reaches_cycle ready (program.code hitem hholds) hbudget fun _ => rfl

theorem follows_ret (program : Program items place bytes)
    (ready : machine.processor.status = .ready) (hitem : items[machine.index]? = some .ret)
    (hholds : Holds machine.processor.core.memory bytes)
    (hperform : machine.perform items bytes.length .ret = some after)
    (hbudget : after.processor.cycles ≤ machine.processor.config.maxCycles) :
    Follows items bytes machine after := by
  simp only [perform, Option.bind_eq_bind, Option.bind_eq_some_iff] at hperform
  obtain ⟨next, hnext, hafter⟩ := hperform
  cases hafter
  refine ⟨?_, hholds, rfl⟩
  rw [located, located, itemOffset_of_startIndex? hnext]
  refine Processor.reaches_cycle ready (program.code hitem hholds) hbudget fun ports => ?_
  simp only [Core.execute, Core.readSide, Core.writeSide, pop, top]
  cases machine.processor.core.stack with
  | nil => rfl
  | cons value rest => rfl

theorem follows_call (program : Program items place bytes) {main : LabelId} {line : Nat}
    (ready : machine.processor.status = .ready)
    (hitem : items[machine.index]? = some (.call main line))
    (hholds : Holds machine.processor.core.memory bytes)
    (hperform : machine.perform items bytes.length (.call main line) = some after)
    (hbudget : after.processor.cycles ≤ machine.processor.config.maxCycles) :
    Follows items bytes machine after := by
  have hback : itemOffset items (machine.index + 1) = itemOffset items machine.index + 6 :=
    itemOffset_succ hitem
  have hcode := program.code hitem hholds
  simp only [perform, Option.bind_eq_bind, Option.bind_eq_some_iff, hback] at hperform
  obtain ⟨next, hnext, pushed, hpushed, hafter⟩ := hperform
  obtain ⟨hstatus, rfl⟩ := continueAt_eq_some hpushed
  cases hafter
  generalize hvalue : UInt8.ofNat (itemOffset items machine.index + 6) = back at hstatus hbudget ⊢
  simp only [Item.instructions, hvalue] at hcode
  rw [Processor.cycles_idle, Processor.cycles_during, Processor.cycles_during] at hbudget
  have hmain := program.toNat_operand hitem (List.mem_cons_of_mem _ (List.mem_singleton_self _))
  -- The three words: `r0` gets the offset, which is pushed, and the jump is taken.
  generalize hloaded : machine.processor.during (fun core => (core.setReg 0 back, none)) = loaded
    at hstatus ⊢
  have hzero : loaded.core.reg 0 = back := by
    rw [← hloaded]
    exact Bank.read_write_self machine.processor.core.registers (by decide) back
  have hmemory : loaded.core.memory = machine.processor.core.memory := by rw [← hloaded]; rfl
  have hcycles : loaded.cycles = machine.processor.cycles + 1 := by rw [← hloaded]; rfl
  have hconfig : loaded.config = machine.processor.config := by rw [← hloaded]; rfl
  have hload : Processor.Reaches (machine.located items)
      (loaded.moved (itemOffset items machine.index + 2)) := by
    rw [← hloaded]
    exact Processor.reaches_cycle ready hcode (by omega) fun _ => rfl
  have hgoing : loaded.status = .ready := by rw [← hloaded]; rfl
  have hpush := Processor.reaches_push hgoing (by rw [hmemory]; exact hcode.2.2)
    (by rw [hcycles, hconfig]; omega)
  rw [hzero] at hpush
  have hpushed := Processor.ready_of_push hstatus
  have hjump := Processor.reaches_goto hpushed
    (by rw [Processor.memory_push, hmemory]; exact hcode.2.2.2.2)
    (by rw [Processor.cycles_during, Processor.config_during, hcycles, hconfig]; omega)
  rw [hmain, program.placed hnext] at hjump
  refine ⟨hload.trans (hpush.trans hjump), ?_, ?_⟩
  · rw [Processor.idle_keeps 1 _ (fun core => core.memory) fun _ _ => rfl, Processor.memory_push,
      hmemory]
    exact hholds
  · rw [Processor.config_idle, Processor.config_during, hconfig]

theorem follows_label (hholds : Holds machine.processor.core.memory bytes) {label : LabelId}
    {line : Nat} (hitem : items[machine.index]? = some (.label label line)) :
    Follows items bytes machine { machine with index := machine.index + 1 } := by
  refine ⟨?_, hholds, rfl⟩
  rw [located, located, itemOffset_succ hitem]
  exact .refl _

/-- Every item is followed. -/
theorem follows_step (program : Program items place bytes)
    (hholds : Holds machine.processor.core.memory bytes)
    (hstep : machine.step items bytes.length = some after)
    (hbudget : after.processor.cycles ≤ machine.processor.config.maxCycles) :
    Follows items bytes machine after := by
  unfold step at hstep
  split at hstep
  case h_2 => cases hstep
  case h_1 item ready hitem =>
    cases item with
    | label label line =>
      cases hstep
      exact follows_label hholds hitem
    | instruction i => exact program.follows_instruction ready hitem hholds hstep hbudget
    | jump test register target line =>
      exact program.follows_jump ready hitem hholds hstep hbudget
    | goto target line => exact program.follows_goto ready hitem hholds hstep hbudget
    | compare comparison register accept reject line =>
      exact program.follows_compare ready hitem hholds hstep hbudget
    | call main line => exact program.follows_call ready hitem hholds hstep hbudget
    | ret => exact program.follows_ret ready hitem hholds hstep hbudget
    | halt => exact program.follows_halt ready hitem hholds hstep hbudget

/-- Every run of items is followed. -/
theorem follows_runFor (program : Program items place bytes) {count : Nat}
    (hholds : Holds machine.processor.core.memory bytes)
    (hrun : machine.runFor items bytes.length count = some after)
    (hbudget : after.processor.cycles ≤ machine.processor.config.maxCycles) :
    Follows items bytes machine after := by
  induction count generalizing machine with
  | zero =>
    cases hrun
    exact ⟨.refl _, hholds, rfl⟩
  | succ count ih =>
    obtain ⟨mid, hstep, hrest⟩ := Option.bind_eq_some_iff.1 hrun
    have hfirst := program.follows_step hholds hstep
      (Nat.le_trans (cycles_le_of_runFor hrest) hbudget)
    exact hfirst.trans (ih hfirst.memory hrest (by rw [hfirst.config]; exact hbudget))

/-- From offset zero, the processor steps to where a run of the items from the first one comes. -/
theorem steps_of_runFor (program : Program items place bytes) {loaded : Processor δ} {count : Nat}
    (hholds : Holds loaded.core.memory bytes) (hpc : loaded.core.pc = 0)
    (hrun : Machine.runFor items bytes.length count ⟨0, loaded⟩ = some after)
    (hbudget : after.processor.cycles ≤ loaded.config.maxCycles) :
    loaded.steps (after.processor.cycles - loaded.cycles) = after.located items := by
  have hsteps := (program.follows_runFor hholds hrun hbudget).reaches.2
  have hlocated : Machine.located items ⟨0, loaded⟩ = loaded := Processor.moved_self hpc
  rw [hlocated] at hsteps
  exact hsteps

/-- Where the items halt, so does the processor. -/
theorem run_of_runFor (program : Program items place bytes) {loaded : Processor δ} {count : Nat}
    (hholds : Holds loaded.core.memory bytes) (hpc : loaded.core.pc = 0)
    (hrun : Machine.runFor items bytes.length count ⟨0, loaded⟩ = some after)
    (hbudget : after.processor.cycles ≤ loaded.config.maxCycles) {reason : StopReason}
    (hstatus : after.processor.status = .halted reason) :
    loaded.run = (reason, after.located items) := by
  have hsteps := program.steps_of_runFor hholds hpc hrun hbudget
  rw [← hsteps]
  exact Processor.run_of_steps (by rw [hsteps]; exact hstatus)

end Program

end Machine

/-- What loading bytes does to a processor that has room for them. -/
theorem loadBytes_eq_ok {δ : Type} {start loaded : Processor δ} {bytes : List UInt8}
    (h : start.loadBytes bytes = .ok loaded) :
    bytes.length ≤ 256 ∧ loaded = { start with
      core := { start.core with memory := start.core.memory.writeAll 0 bytes } } := by
  unfold Processor.loadBytes at h
  split at h
  · cases h
  · next hlength => exact ⟨Nat.le_of_not_lt hlength, (Except.ok.inj h).symm⟩

/-- **The bytes refine the items.** Take items that are laid out and patched without a failure, and a
processor at offset zero into which the bytes are loaded. Every run of the items from the first one
is a run of the processor: after as many steps as the run took cycles, if the budget allows them, the
two have the same registers, memory, ports, stack, exit code, devices and status, and the processor
is at the offset of the next item. If the items have come to a halt, so has the processor. -/
theorem bytes_refine_items {δ : Type} [Device δ] {labels : Labels} {lines : List String}
    {items : List Item} {layout : Layout} {bytes : List UInt8} {start loaded : Processor δ}
    (plain : ∀ i, Item.instruction i ∈ items → i.Plain)
    (known : ∀ label line, Item.label label line ∈ items → label < labels.size)
    (hlower : (Layout.lowerAll lines items).run (.empty labels) = .ok () layout)
    (hpatch : patchAll layout.labels lines layout.fixups layout.bytes = (.ok (), bytes))
    (hload : start.loadBytes bytes = .ok loaded) (hstart : start.core.pc = 0)
    {count : Nat} {after : Machine δ}
    (hrun : Machine.runFor items bytes.length count ⟨0, loaded⟩ = some after)
    (hbudget : after.processor.cycles ≤ start.config.maxCycles) :
    loaded.steps (after.processor.cycles - start.cycles) = after.located items ∧
      ∀ reason, after.processor.status = .halted reason →
        loaded.run = (reason, after.located items) := by
  obtain ⟨hlength, hloaded⟩ := loadBytes_eq_ok hload
  have hholds : Holds loaded.core.memory bytes := by
    rw [hloaded]
    exact holds_writeAll start.core.memory hlength
  have hcycles : loaded.cycles = start.cycles := by rw [hloaded]
  have hbudget : after.processor.cycles ≤ loaded.config.maxCycles := by rw [hloaded]; exact hbudget
  have hpc : loaded.core.pc = 0 := by rw [hloaded]; exact hstart
  have program := Machine.program_of_assembled (assembled_of_layout hlower hpatch) hlength plain
    known
  rw [← hcycles]
  exact ⟨program.steps_of_runFor hholds hpc hrun hbudget,
    fun reason hstatus => program.run_of_runFor hholds hpc hrun hbudget hstatus⟩

/-- A call of a function that stores `r1`: the run comes back, compares, skips a word and halts. -/
theorem bytes_refine_items_call :
    let items : List Item := [.instruction (.load 1 5), .call 1 1, .instruction (.load 0 6),
      .compare .lessEqual 1 (.label 0) .next 2, .instruction .noOp, .label 0 3, .halt,
      .label 1 4, .instruction (.store 1 200), .ret]
    let labels : Labels := ⟨[⟨"end", true, none⟩, ⟨"main", false, none⟩]⟩
    let start : Processor Console := (Processor.new {}).attach 0 .empty
    ∃ layout bytes loaded after,
      (Layout.lowerAll [] items).run (.empty labels) = .ok () layout ∧
      patchAll layout.labels [] layout.fixups layout.bytes = (.ok (), bytes) ∧
      start.loadBytes bytes = .ok loaded ∧
      Machine.runFor items bytes.length 9 ⟨0, loaded⟩ = some after ∧
      after.processor.core.mem 200 = 5 ∧ loaded.run = (.halted, after.located items) := by
  intro items labels start
  let layout : Layout := ⟨[0x21, 5, 0x20, 8, 0x42, 1, 0xB0, 0, 0x20, 6, 0xF1, 0, 0xB1, 0, 0, 0,
    0xC0, 0, 0x31, 200, 0x43, 0x10],
    ⟨[⟨"end", true, some 16⟩, ⟨"main", false, some 18⟩]⟩, [⟨6, 1, 1⟩, ⟨10, 0, 2⟩, ⟨12, 0, 2⟩]⟩
  let bytes : List UInt8 := [0x21, 5, 0x20, 8, 0x42, 1, 0xB0, 18, 0x20, 6, 0xF1, 16, 0xB1, 16, 0, 0,
    0xC0, 0, 0x31, 200, 0x43, 0x10]
  have hlower : (Layout.lowerAll [] items).run (.empty labels) = .ok () layout := by
    unfold items labels layout
    rfl
  have hpatch : patchAll layout.labels [] layout.fixups layout.bytes = (.ok (), bytes) := by rfl
  have hplain : ∀ i, Item.instruction i ∈ items → i.Plain := by
    intro i hi
    simp only [items, List.mem_cons, Item.instruction.injEq, reduceCtorEq, false_or, or_false,
      List.not_mem_nil] at hi
    rcases hi with rfl | rfl | rfl | rfl <;> decide
  have hknown : ∀ label line, Item.label label line ∈ items → label < labels.size := by
    intro label line hi
    simp only [items, List.mem_cons, Item.label.injEq, reduceCtorEq, false_or, or_false,
      List.not_mem_nil] at hi
    rcases hi with ⟨rfl, -⟩ | ⟨rfl, -⟩ <;> decide
  let loaded : Processor Console := { start with
    core := { start.core with memory := start.core.memory.writeAll 0 bytes } }
  have hload : start.loadBytes bytes = .ok loaded := by rfl
  -- The run of the items is evaluated; that of the bytes follows from the theorem.
  have hrun : ((Machine.runFor items bytes.length 9 ⟨0, loaded⟩).any fun after =>
      after.processor.status = .halted .halted ∧ after.processor.core.mem 200 = 5 ∧
        after.processor.cycles ≤ start.config.maxCycles) = true := by decide +kernel
  obtain ⟨after, hafter, hend⟩ := (Option.any_eq_true _ _).1 hrun
  simp only [decide_eq_true_eq] at hend
  obtain ⟨hstatus, hmem, hcycles⟩ := hend
  refine ⟨layout, bytes, loaded, after, hlower, hpatch, hload, hafter, hmem, ?_⟩
  exact (bytes_refine_items hplain hknown hlower hpatch hload rfl hafter hcycles).2 .halted hstatus

end ByteBasic
