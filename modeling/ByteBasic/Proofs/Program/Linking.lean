import ByteBasic.Proofs.Code.Refinement
import ByteBasic.Proofs.Compiler.Calls
import ByteBasic.Proofs.Machine.Consoles

/-!
# Following the items of a program

Where a program is and what it has done so far is a `View`: the number of the next item, the core
without its ports, and the console. `View.Leads` says that running items takes every machine from one
view to another, at a cost in cycles that does not depend on the machine.

There is one lemma for each sort of item. Jumps and returns are given by offsets, and several items
can start at the same offset, but then all but the last of them are labels, which do nothing
(`leads_level`); so a jump to a label leads behind every item that places it.
-/

namespace ByteBasic

open Storage (Calm)

variable {items : List Item} {size index : Nat}

/-! ## Items at the same offset -/

theorem itemOffset_mono (items : List Item) {i j : Nat} (h : i ≤ j) :
    itemOffset items i ≤ itemOffset items j := by
  induction h with
  | refl => exact Nat.le_refl _
  | @step k _ ih =>
    refine Nat.le_trans ih ?_
    unfold itemOffset
    rw [List.take_add_one, List.map_append, List.sum_append]
    exact Nat.le_add_right _ _

theorem isLabel_of_size {item : Item} (h : item.size = 0) : ∃ id line, item = .label id line := by
  cases item with
  | label id line => exact ⟨id, line, rfl⟩
  | compare comparison register accept reject line =>
    have hwords : 0 < (Item.compare comparison register accept reject line).words := by
      cases comparison <;> exact Nat.lt_of_lt_of_le (by decide) (Nat.le_add_right _ _)
    unfold Item.size at h
    omega
  | _ => cases h

/-- Code in which every label and every return is in reach. -/
structure Linked (items : List Item) : Prop where
  label : ∀ {index label line}, items[index]? = some (.label label line) →
    ∃ first ≤ index, labelIndex? items label = some first ∧
      itemOffset items first = itemOffset items index
  back : ∀ {index main line}, items[index]? = some (.call main line) →
    itemOffset items (index + 1) ≤ 255

theorem linked_of_assembled {place : LabelId → Nat} {bytes : List UInt8}
    (h : Assembled items size place bytes)
    (known : ∀ label line, Item.label label line ∈ items → label < size) : Linked items where
  label {index label line} hitem := by
    obtain ⟨first, hle, hfirst⟩ := labelIndex?_le hitem
    obtain ⟨line', hitem'⟩ := getElem?_of_labelIndex? hfirst
    have hlt := known label line (List.mem_of_getElem? hitem)
    exact ⟨first, hle, hfirst,
      (h.placed first label line' hitem' hlt).symm.trans (h.placed index label line hitem hlt)⟩
  back {index main line} hitem := by
    rw [itemOffset_succ hitem]
    refine h.near _ (mem_operandsFrom 0 hitem ?_)
    rw [Nat.zero_add]
    exact List.mem_cons_self ..

/-- The items of a part stand one after the other from an item on. -/
def Stands (items : List Item) (index : Nat) (part : List Item) : Prop :=
  part <+: items.drop index

namespace Stands

variable {part rest : List Item} {item : Item}

theorem left (h : Stands items index (part ++ rest)) : Stands items index part :=
  (List.prefix_append part rest).trans h

theorem right (h : Stands items index (part ++ rest)) :
    Stands items (index + part.length) rest := by
  obtain ⟨more, hmore⟩ := h
  refine ⟨more, ?_⟩
  rw [← List.drop_drop, ← hmore, List.append_assoc, List.drop_left]

theorem head (h : Stands items index (item :: rest)) : items[index]? = some item := by
  obtain ⟨more, hmore⟩ := h
  have hfirst : (items.drop index)[0]? = some item := by
    rw [← hmore]
    rfl
  rwa [List.getElem?_drop, Nat.add_zero] at hfirst

theorem tail (h : Stands items index (item :: rest)) : Stands items (index + 1) rest :=
  right (show Stands items index ([item] ++ rest) from h)

end Stands

/-! ## Calm code -/

/-- Every slot is behind the code. -/
def Storage.Clear (size : Nat) (storage : Storage) : Prop :=
  ∀ id < storage.vars.length, size ≤ (storage.get id).address.toNat

/-- Calm instructions neither look at the ports nor stop the machine. -/
theorem Storage.Calm.execute {storage : Storage} {i : Instruction} (h : Calm storage i)
    (mode : RotateMode) (core : Core) (ports : Bank 256) :
    Core.execute mode i { core with ports := ports } =
      ({ (Core.execute mode i core).1 with ports := ports }, none) := by
  cases i with
  | alu op d a b => cases op <;> rfl
  | move source dest => cases source <;> cases dest <;> first | exact h.elim | rfl
  | jump _ _ _ => exact h.elim
  | halt => exact h.elim
  | storePort _ _ => exact h.elim
  | loadPort _ _ => exact h.elim
  | unknown _ => exact h.elim
  | _ => rfl

theorem Storage.Calm.spoken {storage : Storage} {i : Instruction} (h : Calm storage i)
    (core : Core) : Core.spoken i core = [] := by
  cases i with
  | storePort _ _ => exact h.elim
  | _ => rfl

theorem Storage.Calm.storesBelow {storage : Storage} {i : Instruction} (h : Calm storage i)
    (clear : storage.Clear size) : i.storesBelow size = false := by
  cases i with
  | store r address =>
    obtain ⟨id, hid, rfl⟩ := h
    have hle := clear id hid
    simpa [Instruction.storesBelow] using hle
  | _ => rfl

/-! ## Views -/

/-- Where a program is and what it has done so far. -/
structure View where
  /-- The number of the next item. -/
  index : Nat
  core : Core
  console : Console

namespace View

variable {core core' : Core} {console : Console} {before middle after view : View}

/-- A machine that is in this situation. -/
structure Of (view : View) (machine : Machine Console) : Prop where
  index : machine.index = view.index
  shows : machine.processor.Shows view.core view.console

/-- Running items takes every machine from one situation to another, at a fixed cost. -/
def Leads (items : List Item) (size : Nat) (before after : View) : Prop :=
  ∃ cost, ∀ machine, before.Of machine → ∃ count last,
    machine.runFor items size count = some last ∧ after.Of last ∧
      last.processor.cycles = machine.processor.cycles + cost

theorem Leads.refl (view : View) : view.Leads items size view :=
  ⟨0, fun machine h => ⟨0, machine, rfl, h, rfl⟩⟩

theorem Leads.trans (h₁ : before.Leads items size middle) (h₂ : middle.Leads items size after) :
    before.Leads items size after := by
  obtain ⟨cost₁, h₁⟩ := h₁
  obtain ⟨cost₂, h₂⟩ := h₂
  refine ⟨cost₁ + cost₂, fun machine hmachine => ?_⟩
  obtain ⟨count₁, mid, hrun₁, hmid, hcost₁⟩ := h₁ machine hmachine
  obtain ⟨count₂, last, hrun₂, hlast, hcost₂⟩ := h₂ mid hmid
  exact ⟨count₁ + count₂, last, Machine.runFor_add hrun₁ hrun₂, hlast,
    by rw [hcost₂, hcost₁, Nat.add_assoc]⟩

theorem step_eq {machine : Machine Console} {item : Item} (h : view.Of machine)
    (hitem : items[view.index]? = some item) :
    machine.step items size = machine.perform items size item := by
  unfold Machine.step
  rw [h.shows.status, h.index, hitem]

/-- One item that takes every machine to a situation. -/
theorem leads_of_perform {item : Item} (cost : Nat) (hitem : items[before.index]? = some item)
    (h : ∀ machine, before.Of machine → ∃ last, machine.perform items size item = some last ∧
      after.Of last ∧ last.processor.cycles = machine.processor.cycles + cost) :
    before.Leads items size after := by
  refine ⟨cost, fun machine hmachine => ?_⟩
  obtain ⟨last, hperform, hlast, hcost⟩ := h machine hmachine
  refine ⟨1, last, ?_, hlast, hcost⟩
  rw [Machine.runFor_succ, step_eq hmachine hitem, hperform]
  rfl

theorem leads_label {label : LabelId} {line : Nat}
    (hitem : items[index]? = some (.label label line)) :
    Leads items size ⟨index, core, console⟩ ⟨index + 1, core, console⟩ :=
  leads_of_perform 0 hitem fun _ h => ⟨_, rfl, ⟨congrArg (· + 1) h.index, h.shows⟩, rfl⟩

/-- From an item to a later one at the same offset there are only labels. -/
theorem leads_level {last : Nat} (hle : index ≤ last) (hlast : last ≤ items.length)
    (hoffset : itemOffset items index = itemOffset items last) :
    Leads items size ⟨index, core, console⟩ ⟨last, core, console⟩ := by
  induction hle with
  | refl => exact .refl _
  | @step k hk ih =>
    have hlt : k < items.length := hlast
    have hitem := List.getElem?_eq_getElem hlt
    have hfrom := itemOffset_mono items hk
    rw [itemOffset_succ hitem] at hoffset
    obtain ⟨id, line, hlabel⟩ := isLabel_of_size (show items[k].size = 0 by omega)
    rw [hlabel] at hitem
    exact (ih (Nat.le_of_lt hlt) (by omega)).trans (leads_label hitem)

/-- Going to the first item that places a label leads behind every item that does. -/
theorem leads_placed (linked : Linked items) {label : LabelId} {line : Nat}
    (hitem : items[index]? = some (.label label line)) :
    ∃ first, labelIndex? items label = some first ∧ ∀ core console,
      Leads items size ⟨first, core, console⟩ ⟨index + 1, core, console⟩ := by
  obtain ⟨first, hle, hfirst, hoffset⟩ := linked.label hitem
  have hlt := (List.getElem?_eq_some_iff.1 hitem).1
  exact ⟨first, hfirst, fun _ _ =>
    (leads_level hle (Nat.le_of_lt hlt) hoffset).trans (leads_label hitem)⟩

/-! ## Straight code -/

theorem continueAt_of_ready {processor : Processor Console} (h : processor.status = .ready) :
    Machine.continueAt index processor = some ⟨index, processor⟩ := by
  unfold Machine.continueAt
  rw [h, if_neg (by simp)]

theorem leads_execute {i : Instruction} {byte : UInt8} (hitem : items[index]? = some (.instruction i))
    (hstore : i.storesBelow size = false)
    (heffect : ∀ ports : Bank 256, ports.read 0 = 0 → ∃ ports' : Bank 256, ports'.read 0 = byte ∧
      Core.execute .singleBit i { core with ports := ports } =
        ({ core' with ports := ports' }, none)) :
    Leads items size ⟨index, core, console⟩ ⟨index + 1, core', console.receive byte⟩ := by
  refine leads_of_perform 1 hitem fun machine h => ?_
  have hshows : Processor.Shows core' (console.receive byte)
      (machine.processor.during (Core.execute machine.processor.config.rotate i)) := by
    rw [h.shows.mode]
    exact h.shows.during heffect
  refine ⟨⟨machine.index + 1, _⟩, ?_, ⟨congrArg (· + 1) h.index, hshows⟩, rfl⟩
  simp only [Machine.perform, hstore, Bool.false_eq_true, if_false]
  exact continueAt_of_ready hshows.status

theorem leads_instruction {storage : Storage} {i : Instruction} (clear : storage.Clear size)
    (hi : Calm storage i ∨ ∃ r : Register, i = .storePort r.byte consolePort)
    (hitem : items[index]? = some (.instruction i)) :
    Leads items size ⟨index, core, console⟩
      ⟨index + 1, { (Core.execute .singleBit i core).1 with ports := core.ports },
        console.receiveAll (Core.spoken i core)⟩ := by
  rcases hi with hcalm | ⟨r, rfl⟩
  · rw [hcalm.spoken]
    refine leads_execute hitem (hcalm.storesBelow clear) fun ports hports => ⟨ports, hports, ?_⟩
    exact hcalm.execute .singleBit core ports
  · refine leads_execute hitem rfl fun ports _ => ⟨ports.write 0 (core.reg r.byte), ?_, rfl⟩
    exact Bank.read_write_self ports (by decide) _

theorem leads_straight {storage : Storage} {code : List Instruction} (clear : storage.Clear size)
    (audible : Build.Audible storage code) (h : Stands items index (code.map .instruction)) :
    Leads items size ⟨index, core, console⟩
      ⟨index + code.length, (core.speak .singleBit code).1,
        console.receiveAll (core.speak .singleBit code).2⟩ := by
  induction code generalizing index core console with
  | nil => exact .refl _
  | cons i code ih =>
    have hfirst : Leads items size ⟨index, core, console⟩ _ :=
      leads_instruction clear (audible i (by simp)) h.head
    have hlength : index + (i :: code).length = index + 1 + code.length := by
      rw [List.length_cons]
      omega
    rw [hlength, Core.speak]
    simp only [Console.receiveAll_append]
    exact hfirst.trans (ih (fun j hj => audible j (by simp [hj])) h.tail)

theorem leads_calm {storage : Storage} {code : List Instruction} (clear : storage.Clear size)
    (calm : ∀ i ∈ code, Calm storage i) (h : Stands items index (code.map .instruction)) :
    Leads items size ⟨index, core, console⟩
      ⟨index + code.length, core.executeAll .singleBit code, console⟩ := by
  have hleads : Leads items size ⟨index, core, console⟩ _ :=
    leads_straight clear (fun i hi => .inl (calm i hi)) h
  rw [Storage.speak_calm calm] at hleads
  exact hleads

/-! ## Jumps -/

theorem leads_goto (linked : Linked items) {label : LabelId} {line line' target : Nat}
    (hitem : items[index]? = some (.goto label line))
    (htarget : items[target]? = some (.label label line')) :
    Leads items size ⟨index, core, console⟩ ⟨target + 1, core, console⟩ := by
  obtain ⟨first, hfirst, hleads⟩ := leads_placed linked htarget
  refine Leads.trans (leads_of_perform 1 hitem fun machine h => ?_) (hleads _ _)
  refine ⟨⟨first, machine.processor.idle 1⟩, ?_, ⟨rfl, h.shows.idle 1⟩, Processor.cycles_idle ..⟩
  simp only [Machine.perform, hfirst, Option.bind_eq_bind, Option.bind_some]
  rfl

/-- A comparison leads where its target does. -/
theorem leads_compare {comparison : Comparison} {register : UInt8} {accept reject : Target}
    {line next : Nat} (hitem : items[index]? = some (.compare comparison register accept reject line))
    (hnext : (if comparison.holds (core.reg register) (core.reg 0) then accept else reject).index?
      items index = some next) :
    Leads items size ⟨index, core, console⟩ ⟨next, core, console⟩ := by
  refine leads_of_perform (comparison.cycles (core.reg register) (core.reg 0)
    (comparison.verdict.opposite.pick accept reject)) hitem fun machine h => ?_
  refine ⟨⟨next, machine.processor.idle _⟩, ?_, ⟨rfl, h.shows.idle _⟩, Processor.cycles_idle ..⟩
  have hindex : machine.index = index := h.index
  simp only [Machine.perform, h.shows.reg, hindex, hnext, Option.bind_eq_bind, Option.bind_some]
  rfl

/-- A call leads behind the label of the function. -/
theorem leads_call (linked : Linked items) {main : LabelId} {line line' target : Nat}
    (hitem : items[index]? = some (.call main line))
    (htarget : items[target]? = some (.label main line')) (room : core.stack.length < stackLimit) :
    ∃ back : UInt8, back.toNat = itemOffset items (index + 1) ∧
      Leads items size ⟨index, core, console⟩
        ⟨target + 1, { core.setReg 0 back with stack := back :: core.stack }, console⟩ := by
  obtain ⟨first, hfirst, hleads⟩ := leads_placed linked htarget
  obtain ⟨back, hback⟩ : ∃ back, back = UInt8.ofNat (itemOffset items (index + 1)) := ⟨_, rfl⟩
  refine ⟨back, ?_, Leads.trans (leads_of_perform 3 hitem fun machine h => ?_) (hleads _ _)⟩
  · rw [hback]
    exact UInt8.toNat_ofNat_of_lt' (Nat.lt_succ_of_le (linked.back hitem))
  · have hindex : machine.index = index := h.index
    have hloaded : Processor.Shows (core.setReg 0 back) console (machine.processor.during
        fun core => (core.setReg 0 back, none)) := h.shows.quiet fun _ => rfl
    have hroom : ¬ core.stack.length ≥ stackLimit := Nat.not_le_of_lt room
    have hpushed : Processor.Shows { core.setReg 0 back with stack := back :: core.stack } console
        ((machine.processor.during fun core => (core.setReg 0 back, none)).during
          (Machine.push back)) :=
      hloaded.quiet fun _ => if_neg hroom
    refine ⟨⟨first, ((machine.processor.during fun core => (core.setReg 0 back, none)).during
      (Machine.push back)).idle 1⟩, ?_, ⟨rfl, hpushed.idle 1⟩, rfl⟩
    simp only [Machine.perform, hfirst, hindex, ← hback, continueAt_of_ready hpushed.status,
      Option.bind_eq_bind, Option.bind_some]
    rfl

/-- A return leads to every item that starts at the offset on top of the stack. -/
theorem leads_ret {back : UInt8} {rest : List UInt8} {target : Nat}
    (hitem : items[index]? = some .ret) (hstack : core.stack = back :: rest)
    (htarget : target ≤ items.length) (hback : back.toNat = itemOffset items target) :
    Leads items size ⟨index, core, console⟩ ⟨target, { core with stack := rest }, console⟩ := by
  obtain ⟨first, hle, hfirst, hoffset⟩ : ∃ first ≤ target,
      startIndex? items back.toNat = some first ∧
        itemOffset items first = itemOffset items target := by
    cases hfirst : startIndex? items back.toNat with
    | none =>
      have hno := List.find?_eq_none.1 hfirst target (by simp; omega)
      simp [hback] at hno
    | some first =>
      refine ⟨first, Nat.le_of_not_lt fun hbefore => ?_, rfl, ?_⟩
      · have hno := (List.find?_range_eq_some.1 hfirst).2.2 target hbefore
        simp [hback] at hno
      · rw [itemOffset_of_startIndex? hfirst, hback]
  refine Leads.trans (leads_of_perform 1 hitem fun machine h => ?_) (leads_level hle htarget hoffset)
  have htop : Machine.top machine.processor.core = back := by
    rw [Machine.top, h.shows.stack, hstack]
    rfl
  have hpopped : Processor.Shows { core with stack := rest } console
      (machine.processor.during Machine.pop) :=
    h.shows.quiet fun _ => by simp only [Machine.pop, hstack, List.tail_cons]
  refine ⟨⟨first, machine.processor.during Machine.pop⟩, ?_, ⟨rfl, hpopped⟩, rfl⟩
  simp only [Machine.perform, htop, hfirst, Option.bind_eq_bind, Option.bind_some]
  rfl

/-! ## Ends -/

/-- Running items takes every machine from a situation to a halt, at a fixed cost. -/
def Ends (items : List Item) (size : Nat) (view : View) (code : UInt8) (console : Console) : Prop :=
  ∃ cost, ∀ machine, view.Of machine → ∃ count last,
    machine.runFor items size count = some last ∧ last.processor.status = .halted .halted ∧
      last.processor.core.exitCode = code ∧ last.processor.slots = [⟨0, console⟩] ∧
      last.processor.cycles = machine.processor.cycles + cost

theorem Leads.ends {code : UInt8} (h : before.Leads items size after)
    (hends : after.Ends items size code console) : before.Ends items size code console := by
  obtain ⟨cost₁, h₁⟩ := h
  obtain ⟨cost₂, h₂⟩ := hends
  refine ⟨cost₁ + cost₂, fun machine hmachine => ?_⟩
  obtain ⟨count₁, mid, hrun₁, hmid, hcost₁⟩ := h₁ machine hmachine
  obtain ⟨count₂, last, hrun₂, hstatus, hcode, hslots, hcost₂⟩ := h₂ mid hmid
  exact ⟨count₁ + count₂, last, Machine.runFor_add hrun₁ hrun₂, hstatus, hcode, hslots,
    by rw [hcost₂, hcost₁, Nat.add_assoc]⟩

theorem ends_halt (hitem : items[index]? = some .halt) :
    Ends items size ⟨index, core, console⟩ core.exitCode console := by
  refine ⟨1, fun machine h => ?_⟩
  obtain ⟨halted, hhalted⟩ :
    ∃ p, p = machine.processor.during fun core => (core, some .halted) := ⟨_, rfl⟩
  have hafter : halted.status = Processor.statusAfter (some .halted) ∧
      halted.slots = [⟨0, console.receive 0⟩] ∧ ∃ ports, halted.core = { core with ports := ports } := by
    rw [hhalted]
    have hshows : Processor.Shows core console machine.processor := h.shows
    refine Processor.slots_during hshows fun ports hports => ⟨ports, hports, ?_⟩
    rfl
  obtain ⟨hstatus, hslots, ports, hcore⟩ := hafter
  refine ⟨1, ⟨machine.index + 1, halted⟩, ?_, hstatus, ?_, hslots, ?_⟩
  · rw [Machine.runFor_succ, step_eq h hitem, hhalted]
    rfl
  · exact (congrArg Core.exitCode hcore).trans rfl
  · exact congrArg Processor.cycles hhalted

theorem ends_exit {code : UInt8} (h : Stands items index ([Instruction.load 0 code,
      .move (.general 0) (.special .exitCode)].map .instruction ++ [.halt])) :
    Ends items size ⟨index, core, console⟩ code console := by
  have hload : Leads items size ⟨index, core, console⟩ ⟨index + 1, core.setReg 0 code, console⟩ :=
    leads_execute h.left.head rfl fun ports hports => ⟨ports, hports, rfl⟩
  have hmove : Leads items size ⟨index + 1, core.setReg 0 code, console⟩
      ⟨index + 2, { core.setReg 0 code with exitCode := code }, console⟩ := by
    refine leads_execute h.tail.head rfl fun ports hports => ⟨ports, hports, ?_⟩
    have hzero : ({ core.setReg 0 code with ports := ports } : Core).reg 0 = code :=
      Core.reg_setReg_self core 0 code
    simp only [Core.execute, Core.readSide, Core.writeSide, hzero]
  exact hload.ends (hmove.ends (ends_halt h.tail.tail.head))

end View

end ByteBasic
