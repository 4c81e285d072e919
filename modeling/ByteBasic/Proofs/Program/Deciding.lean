import ByteBasic.Proofs.Code.Resolution
import ByteBasic.Proofs.Compiler.Effects
import ByteBasic.Proofs.Machine.Budgets
import ByteBasic.Proofs.Program.Linking

/-!
# What a condition does

**Theorem (`conditions_branch_as_they_hold`).** Between two lines, take any condition whose sides refer to
something and are not both numbers, and any two targets. After everything has been written back, the
condition is compiled. Wherever its code is laid out and patched, a processor without devices that
arrives there goes to the one target if the condition holds of the bytes that the sides hold, and to the
other if not, under every budget that has the cycles for it; nothing but registers has changed on the
way.

The code is instructions that only fill registers (`Processor.reaches_fills`), followed by a comparison
that comes out as the condition does (`Build.gives_sides`). How the comparison becomes tests and jumps
is a matter of one item (`Processor.reaches_compare`), and that its targets are where their labels are
placed is what laying out and patching come to (`Resolved.exists_place`).
-/

namespace ByteBasic

/-! ## Code that is laid out -/

/-- The items are laid out over labels of which none was placed before, and patched, and come to these
bytes. -/
structure Resolved (labels : Labels) (text : List String) (items : List Item) (bytes : List UInt8) :
    Prop where
  unplaced : ∀ id, labels.offset? id = none
  covers : labels.Cover items
  patched : ∃ layout, (Layout.lowerAll text items).run (.empty labels) = .ok () layout ∧
    patchAll layout.labels text layout.fixups layout.bytes = (.ok (), bytes)

/-- Where a target leads: to the item that places the label, or else to the next item. -/
def Target.LeadsTo (items : List Item) (next offset : Nat) : Target → Prop
  | .label id =>
    ∃ (index line : Nat), items[index]? = some (.label id line) ∧ itemOffset items index = offset
  | .next => itemOffset items next = offset

/-- Every target is at the item that places it. -/
theorem Resolved.exists_place {labels : Labels} {text : List String} {items : List Item}
    {bytes : List UInt8} (h : Resolved labels text items bytes) :
    ∃ place, Assembled items labels.size place bytes ∧
      ∀ item ∈ items, ∀ target ∈ item.targets, ∀ next,
        (Target.label target).LeadsTo items next (place target) := by
  obtain ⟨layout, hlower, hpatch⟩ := h.patched
  have hassembled := assembled_of_layout hlower hpatch
  have hassemblable := (patched_iff_assemblable h.unplaced h.covers).1.1 ⟨layout, bytes, hlower, hpatch⟩
  refine ⟨_, hassembled, fun item hitem target htarget _ => ?_⟩
  obtain ⟨index, line, hlabel, -⟩ := hassemblable.reach item hitem target htarget
  have hknown := h.covers item hitem target (Item.mem_labels_of_targets htarget)
  exact ⟨index, line, hlabel, (hassembled.placed index target line hlabel hknown).symm⟩

/-! ## Running code that fills registers -/

namespace Processor

variable {δ : Type} [Device δ] {processor : Processor δ} {items : List Item} {bytes : List UInt8}
variable {index size : Nat} {code : List Instruction} {place : LabelId → Nat}

omit [Device δ] in
/-- A processor without devices that is about to execute the item with a given number of code that is in
its memory. -/
structure ArrivesAt (processor : Processor δ) (items : List Item) (bytes : List UInt8)
    (index : Nat) : Prop where
  bare : processor.slots = []
  ready : processor.status = .ready
  room : bytes.length ≤ memorySize
  holds : Holds processor.core.memory bytes
  pc : processor.core.pc = itemOffset items index

/-- Instructions that only fill registers take one cycle each. -/
theorem reaches_fills (hassembled : Assembled items size place bytes)
    (hlength : bytes.length ≤ memorySize) (hstands : Stands items index (code.map .instruction))
    (hfills : ∀ i ∈ code, i.Steady ∧ ∃ r, Storage.Fills r i) (bare : processor.slots = [])
    (ready : processor.status = .ready) (hholds : Holds processor.core.memory bytes)
    (hcycles : processor.cycles + code.length ≤ processor.config.maxCycles) :
    Reaches (processor.moved (itemOffset items index))
      ({ processor with
        core := processor.core.executeAll processor.config.rotate code
        cycles := processor.cycles + code.length }.moved (itemOffset items (index + code.length))) := by
  induction code generalizing index processor with
  | nil => exact .refl _
  | cons i rest ih =>
    obtain ⟨⟨steady, r, hi⟩, hrest⟩ := List.forall_mem_cons.1 hfills
    have hitem := hstands.head
    rw [List.length_cons] at hcycles
    have hcode := hassembled.codeAt hlength hitem
      (fun j hj => by cases hj; exact steady.plain) hholds
    have hfirst := reaches_cycle ready hcode (by omega)
      fun ports => execute_plain steady.plain processor.config.rotate
        { processor.core with ports := ports } _
    rw [during_bare bare ready (Core.execute_of_steady steady _ _).1,
      show itemOffset items index + 2 = itemOffset items (index + 1) from
        (itemOffset_succ hitem).symm] at hfirst
    have hmemory : Holds (Core.execute processor.config.rotate i processor.core).1.memory bytes := by
      obtain ⟨value, hvalue⟩ := hi processor.config.rotate processor.core
      rw [hvalue]
      exact hholds
    rw [List.length_cons, show index + (rest.length + 1) = index + 1 + rest.length by omega,
      show processor.cycles + (rest.length + 1) = processor.cycles + 1 + rest.length by omega]
    refine hfirst.trans (ih hstands.tail hrest bare ready hmemory ?_)
    show processor.cycles + 1 + rest.length ≤ processor.config.maxCycles
    omega

omit [Device δ] in
/-- The budget has no say in where a processor arrives. -/
theorem ArrivesAt.budgeted (h : processor.ArrivesAt items bytes index) (budget : Nat) :
    (processor.budgeted budget).ArrivesAt items bytes index :=
  ⟨h.bare, h.ready, h.room, h.holds, h.pc⟩

/-- Such instructions and a comparison behind them lead to a target of the comparison, in a number of
cycles that does not depend on the budget. -/
theorem ArrivesAt.decides {labels : Labels} {text : List String} {comparison : Comparison}
    {register : UInt8} {accept reject : Target} {line : Nat} (h : processor.ArrivesAt items bytes index)
    (resolved : Resolved labels text items bytes)
    (hstands : Stands items index
      (code.map .instruction ++ [.compare comparison register accept reject line]))
    (hfills : ∀ i ∈ code, i.Steady ∧ ∃ r, Storage.Fills r i) :
    let last := processor.core.executeAll processor.config.rotate code
    ∃ cost ≤ code.length + (Item.compare comparison register accept reject line).words, ∃ pc,
      (if comparison.holds (last.reg register) (last.reg 0) then accept else reject).LeadsTo items
        (index + code.length + 1) pc ∧
      ∀ budget, processor.cycles + cost ≤ budget →
        steps cost (processor.budgeted budget) =
          { processor.budgeted budget with
            core := { last with pc := pc }
            cycles := processor.cycles + cost } := by
  intro last
  obtain ⟨place, hassembled, hplace⟩ := resolved.exists_place
  have hitem := hstands.right.head
  rw [List.length_map] at hitem
  have hleads : ∀ target, target = accept ∨ target = reject →
      target.LeadsTo items (index + code.length + 1)
        (target.offset place (itemOffset items (index + code.length + 1))) := by
    rintro (id | _) htarget
    · refine hplace _ (List.mem_of_getElem? hitem) id ?_ _
      show id ∈ accept.labels ++ reject.labels
      rcases htarget with rfl | rfl <;> simp [Target.labels]
    · rfl
  refine ⟨code.length + comparison.cycles (last.reg register) (last.reg 0)
      (comparison.verdict.opposite.pick accept reject),
    Nat.add_le_add_left (cycles_le_words ..) _, _, hleads _ (by split <;> simp), fun budget hbudget => ?_⟩
  have h := h.budgeted budget
  -- First the instructions, which leave the code and all else but registers as it is.
  have hfirst := reaches_fills hassembled h.room hstands.left hfills h.bare h.ready h.holds
    (show processor.cycles + code.length ≤ budget by omega)
  have hholds : Holds last.memory bytes := by
    obtain ⟨registers, hregisters⟩ := Core.executeAll_of_fills (fun i hi => (hfills i hi).2)
      processor.config.rotate processor.core
    show Holds (Core.executeAll _ _ _).memory bytes
    rw [hregisters]
    exact h.holds
  -- Then the comparison, at the place where they end.
  have hsecond := @reaches_compare δ _ { processor.budgeted budget with
      core := last, cycles := processor.cycles + code.length } (itemOffset items (index + code.length))
    comparison register accept reject line place h.ready
    (hassembled.codeAt h.room hitem (fun i hi => (by cases hi)) hholds)
    (fun _ hoperand => hassembled.operand_le hitem hoperand)
    (by rw [Nat.add_assoc]; exact hbudget)
  rw [← itemOffset_succ hitem, idle_bare _ (by exact h.bare) (by exact h.ready)] at hsecond
  obtain ⟨-, hsteps⟩ := hfirst.trans hsecond
  rw [moved_self h.pc] at hsteps
  have hcost : ∀ cost, processor.cycles + code.length + cost - processor.cycles = code.length + cost := by
    omega
  have hstart : (processor.budgeted budget).cycles = processor.cycles := rfl
  simp only [moved, hstart, hcost] at hsteps
  exact hsteps.trans (by rw [Nat.add_assoc processor.cycles])

end Processor

open Build (straight)

/-- **Conditions branch as they hold.** Let the sides of a condition refer to something between two
lines, and not both to numbers. Then the code of the condition, which comes after everything is written
back and goes to the open stream, is there without a failure. Take it at any place in items that are laid
out and patched, and a processor without devices that arrives there. In as many cycles at most as the code
has words, it goes to where `accept` leads if the comparison holds of the bytes that the sides had on
arrival, and to where `reject` leads if not. The cycles it takes do not depend on the budget, and under
every budget that has them, only registers and the program counter are changed. -/
theorem conditions_branch_as_they_hold {δ : Type} [Device δ] {lines : List String} {count : Nat}
    {session : Session} (h : Session.Reached lines count session) {condition : Condition}
    {left right : Referent}
    (hleft : Referent.ofOperand session.state.storage session.state.current condition.left = .ok left)
    (hright : Referent.ofOperand session.state.storage session.state.current condition.right = .ok right)
    (numbers : (left.isLiteral && right.isLiteral) = false) (accept reject : Target) (line : Nat) :
    let synced := Build.flush.run session.state
    let tested := (Build.compare condition accept reject line).run synced.state
    let part := (streamed tested.output).map Prod.snd
    synced.result = .ok () ∧ tested.result = .ok () ∧
    streamed tested.output = part.map (fun item => (session.state.current, item)) ∧
    ∀ labels text items bytes index, Resolved labels text items bytes → Stands items index part →
      ∀ processor : Processor δ, processor.ArrivesAt items bytes index →
        ∃ cost ≤ (part.map Item.words).sum, ∃ registers pc,
          (if condition.comparison.holds (left.value synced.state.storage processor.core)
            (right.value synced.state.storage processor.core) then accept else reject).LeadsTo items
              (index + part.length) pc ∧
          ∀ budget, processor.cycles + cost ≤ budget →
            Processor.steps cost (processor.budgeted budget) =
              { processor.budgeted budget with
                core := { processor.core with registers := registers, pc := pc }
                cycles := processor.cycles + cost } := by
  intro synced tested part
  have hinRange := h.inRange
  obtain ⟨_, hsynced, _, -, hstays, hflushes⟩ :=
    (Build.gives_flush hinRange.state hinRange.unpinned).exists_result
  -- The sides still refer to what they did before everything was written back.
  have hresolves : ∀ {operand referent},
      Referent.ofOperand session.state.storage session.state.current operand = .ok referent →
        Referent.ofOperand synced.state.storage synced.state.current operand = .ok referent := by
    intro operand referent hof
    rw [hstays.alike.current, Referent.ofOperand_of_same hstays.same]
    exact hof
  obtain ⟨code, comparison, register, htested, hitems, hfills, hholds⟩ :=
    Build.exists_compare (hstays.ranged hinRange.state) hflushes.vacant (hresolves hleft)
      (hresolves hright) numbers accept reject line
  have hpart : part = code.map .instruction ++ [.compare comparison register accept reject line] := by
    unfold part
    rw [hitems, List.map_append, straight, List.map_map]
    rfl
  refine ⟨hsynced, htested, ?_, fun labels text items bytes index resolved hstands processor harrives => ?_⟩
  · rw [hpart, hitems, hstays.alike.current, List.map_append, List.map_map]
    rfl
  · rw [hpart] at hstands ⊢
    obtain ⟨cost, hle, pc, hleads, hsteps⟩ := harrives.decides resolved hstands hfills
    obtain ⟨registers, hregisters⟩ := Core.executeAll_of_fills (fun i hi => (hfills i hi).2)
      processor.config.rotate processor.core
    rw [hholds] at hleads
    rw [hregisters] at hsteps
    refine ⟨cost, ?_, registers, pc, ?_, hsteps⟩
    · simpa [Function.comp_def, Item.words, List.map_const'] using hle
    · rw [List.length_append, List.length_map, ← Nat.add_assoc]
      exact hleads

/-- A variable is compared with `r0`, so it is the one that needs another register. -/
theorem conditions_branch_as_they_hold_r0 :
    let state := (Session.new.line "var x = 7" 1).2.endStatement.state
    let condition : Condition := ⟨.word "x", .less, .word "r0"⟩
    let tested := (Build.compare condition (.label 0) .next 2).run (Build.flush.run state).state
    let start : Processor Console := Processor.new {}
    let bytes : List UInt8 := [0, 0, 0x11, 255, 0xF1, 8, 0xC0, 0]
    let core := { ({ start.core with memory := start.core.memory.writeAll 0 bytes }.setMem 255 7).setReg 0 9
      with pc := 2 }
    tested.result = .ok () ∧
    (streamed tested.output).map Prod.snd =
      [.instruction (.loadMem 1 255), .compare .less 1 (.label 0) .next 2] ∧
    ∃ cost ≤ 2, ∃ registers, Processor.steps cost { start with core := core } =
      { start with core := { core with registers := registers, pc := 8 }, cycles := cost } := by
  intro state condition tested start bytes core
  have hline : (Session.new.line "var x = 7" 1).1.toOption = some () := by decide +kernel
  have hreached : Session.Reached ["var x = 7"] 1 (Session.new.line "var x = 7" 1).2.endStatement :=
    .line .new rfl (Prod.ext (ok_of_toOption hline) rfl)
  have hx : (Referent.ofOperand state.storage state.current condition.left).toOption =
      some (.variable 0) := by decide +kernel
  have hr0 : (Referent.ofOperand state.storage state.current condition.right).toOption =
      some (.register 0) := by decide +kernel
  obtain ⟨-, htested, -, hruns⟩ := @conditions_branch_as_they_hold Console _ _ _ _ hreached condition _ _
    (ok_of_toOption hx) (ok_of_toOption hr0) rfl (.label 0) .next 2
  have hpart : (streamed tested.output).map Prod.snd =
      [.instruction (.loadMem 1 255), .compare .less 1 (.label 0) .next 2] := by decide +kernel
  -- The part stands behind an instruction, and what it jumps to is the last item.
  let items : List Item := [.instruction .noOp, .instruction (.loadMem 1 255),
    .compare .less 1 (.label 0) .next 2, .halt, .label 0 3]
  let labels : Labels := ⟨[⟨"done", true, none⟩]⟩
  let layout : Layout := ⟨[0, 0, 0x11, 255, 0xF1, 0, 0xC0, 0], ⟨[⟨"done", true, some 8⟩]⟩, [⟨4, 0, 2⟩]⟩
  have hresolved : Resolved labels [] items bytes := by
    refine ⟨fun id => ?_, ?_, layout, ?_, rfl⟩
    · match id with
      | 0 | _ + 1 => rfl
    · unfold Labels.Cover items labels
      decide
    · unfold items labels layout
      rfl
  have hholds : Holds core.memory bytes := by
    unfold Holds
    decide +kernel
  have hstands : Stands items 1 ((streamed tested.output).map Prod.snd) := by
    rw [hpart]
    exact ⟨[.halt, .label 0 3], rfl⟩
  obtain ⟨cost, hle, registers, pc, hleads, hsteps⟩ := hruns labels [] items bytes 1 hresolved hstands
    { start with core := core } ⟨rfl, rfl, by decide, hholds, rfl⟩
  have hle : cost ≤ (((streamed tested.output).map Prod.snd).map Item.words).sum := hle
  rw [hpart] at hle
  have hsteps := hsteps start.config.maxCycles (Nat.le_trans (Nat.add_le_add_left hle _) (by decide))
  -- Seven is less than nine, so the code ends where the label is.
  have hless : condition.comparison.holds
      (Referent.value (Build.flush.run state).state.storage core (.variable 0))
      (Referent.value (Build.flush.run state).state.storage core (.register 0)) = true := by decide +kernel
  refine ⟨htested, hpart, cost, hle, registers, ?_⟩
  obtain ⟨index, line, hitem, rfl⟩ : ∃ index line, items[index]? = some (.label 0 line) ∧
      itemOffset items index = pc := by
    rw [if_pos hless] at hleads
    exact hleads
  have honly : ∀ i < items.length, items[i]?.map Item.placed = some [0] → itemOffset items i = 8 := by
    unfold items
    decide
  have hplace := honly index (List.getElem?_eq_some_iff.1 hitem).1 (by rw [hitem]; rfl)
  have hcycles : start.cycles + cost = cost := Nat.zero_add cost
  rw [hplace] at hsteps
  refine hsteps.trans ?_
  dsimp only
  rw [hcycles]
  rfl

end ByteBasic
