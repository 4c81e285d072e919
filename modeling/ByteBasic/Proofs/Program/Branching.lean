import ByteBasic.Proofs.Program.Jumping

/-!
# Blocks follow the program

The first line of a block makes its labels, and the lines that end the block or turn to its other
branch place them. Which line that is can be read off the program (`Program.ofBlock?`), and the labels
of an open block are those that its first line made (`Trace.opened`); so a jump to one of them leads to
the line that the program goes on with.

The end of a `while` goes back to where its condition is tested, behind the code that writes everything
back (`Position.check`).
-/

namespace ByteBasic

open Source (Program Outline State)
open Build (Continues Compared straight streamBehind)
open Storage (Holds Flushes)

theorem Block.close_eq (block : Block) (number : Nat) :
    ∃ items, block.close number = items ++ [.label block.after number] := by
  rcases hkind : block.kind with ⟨label, _ | _⟩ | ⟨check⟩ | ⟨id⟩
  · exact ⟨[.label label number], by simp [Block.close, hkind]⟩
  · exact ⟨[], by simp [Block.close, hkind]⟩
  · exact ⟨[.goto check number], by simp [Block.close, hkind]⟩
  · exact ⟨[.ret], by simp [Block.close, hkind]⟩

theorem Block.Became.after_eq {first block : Block} (h : first.Became block) :
    block.after = first.after := by
  rcases h with rfl | ⟨label, -, rfl⟩
  · rfl
  · rfl

/-- A block without an `else` is as it was opened. -/
theorem Block.Became.eq_of_kind {first block : Block} (h : first.Became block)
    (hkind : ∀ label, block.kind ≠ .branch label true) : block = first := by
  rcases h with rfl | ⟨label, -, rfl⟩
  · rfl
  · exact absurd rfl (hkind label)

/-- The end of a branch places labels only. -/
theorem Block.labels_of_branch {block : Block} {label : LabelId} {hasElse : Bool}
    (hkind : block.kind = .branch label hasElse) (number : Nat) :
    ∀ item ∈ block.close number, ∃ id line, item = .label id line := by
  intro item hitem
  cases hasElse with
  | false =>
    simp only [Block.close, hkind, List.mem_cons, List.not_mem_nil, or_false] at hitem
    rcases hitem with rfl | rfl
    · exact ⟨_, _, rfl⟩
    · exact ⟨_, _, rfl⟩
  | true =>
    simp only [Block.close, hkind, List.mem_singleton] at hitem
    exact ⟨_, _, hitem⟩

namespace Trace

variable {program : Program} {trace : Trace program} {line size index target start : Nat}
variable {source next : State} {view : View} {core : Core} {console : Console}
variable {after : BuildState} {items : List (Scope × Item)} {part rest : List Item}
variable {label : LabelId} {condition : Condition} {block first : Block} {outer : List Block}

/-! ## Labels of blocks -/

/-- The innermost block at a line of a block is the one that its first line opened. -/
theorem opened_of_ofBlock {statement : Statement} (h : program.OfBlock statement start line)
    (hblocks : (trace.state line).blocks = block :: outer)
    (hhead : (trace.state (start + 1)).blocks.head? = some first) :
    trace.Opened line block start first := by
  obtain ⟨other, _, was, hother, hopened⟩ := trace.head_of_ofBlock h
  rw [hblocks] at hother
  cases hother
  have hwas := hopened.head
  rw [hhead] at hwas
  cases hwas
  exact hopened

/-- The label behind a block leads behind its end. -/
theorem lands_behind (h : program.OfBlock .close start line)
    (hhead : (trace.state (start + 1)).blocks.head? = some first)
    (hkind : ∀ id, first.kind ≠ .function id) : trace.Lands first.after (line + 1) := by
  obtain ⟨after, items, hcomes, block, outer, code, hblocks, hcontinues, hflushes, hitems⟩ :=
    trace.comes h.1
  have hbecame := (opened_of_ofBlock h hblocks hhead).became
  have hstream : streamBehind block (trace.state line).current = (trace.state line).current := by
    have hno : Build.isFunctionBlock block = false := by
      unfold Build.isFunctionBlock
      rcases hbecame with rfl | ⟨_, -, rfl⟩
      · split
        next id hid => exact absurd hid (hkind id)
        · rfl
      · rfl
    rw [streamBehind, hno]
    rfl
  have hcurrent : after.current = (trace.state line).current := hcontinues.current.trans hstream
  have hputs := hcomes.puts_straight _ hitems
  obtain ⟨before, hclose⟩ := block.close_eq (line + 1)
  rw [hclose, ← List.append_assoc, hbecame.after_eq] at hputs
  exact hcomes.lands hputs (by simp) hcurrent (hflushes.vacant.toUnbound hflushes.serves.tidy)

theorem lands_otherwise (h : program.OfBlock .otherwise start line)
    (hhead : (trace.state (start + 1)).blocks.head? = some first)
    (hkind : first.kind = .branch label false) : trace.Lands label (line + 1) := by
  obtain ⟨after, items, hcomes, block, other, outer, code, hblocks, hother, hcontinues, hflushes,
    hitems⟩ := trace.comes h.1
  obtain rfl : other = label := by
    rcases (opened_of_ofBlock h hblocks hhead).became with rfl | ⟨_, -, rfl⟩
    · rw [hother] at hkind
      cases hkind
      rfl
    · cases hother
  have hputs := hcomes.puts_straight
    ([.goto block.after (line + 1)] ++ [.label other (line + 1)]) hitems
  rw [← List.append_assoc] at hputs
  exact hcomes.lands hputs (by simp) hcontinues.current
    (hflushes.vacant.toUnbound hflushes.serves.tidy)

/-- Without an `else`, it leads behind the end of the block, too. -/
theorem lands_without (h : program.OfBlock .close start line)
    (hhead : (trace.state (start + 1)).blocks.head? = some first)
    (hkind : first.kind = .branch label false)
    (hno : ∀ turn, ¬ program.OfBlock .otherwise start turn) : trace.Lands label (line + 1) := by
  obtain ⟨after, items, hcomes, block, outer, code, hblocks, hcontinues, hflushes, hitems⟩ :=
    trace.comes h.1
  have hopened := opened_of_ofBlock h hblocks hhead
  have hsame : block.kind = .branch label false := by
    rcases hopened.became with rfl | ⟨other, -, rfl⟩
    · exact hkind
    · obtain ⟨turn, -, hturn⟩ := hopened.otherwise other rfl
      exact absurd hturn (hno turn)
  have hcurrent : after.current = (trace.state line).current := by
    rw [hcontinues.current]
    simp [streamBehind, Build.isFunctionBlock, hsame]
  have hclose : block.close (line + 1) = [.label label (line + 1), .label block.after (line + 1)] := by
    simp [Block.close, hsame]
  have hputs := hcomes.puts_straight _ hitems
  rw [hclose] at hputs
  refine hcomes.lands hputs (fun item hitem => ?_) hcurrent
    (hflushes.vacant.toUnbound hflushes.serves.tidy)
  exact ⟨_, _, List.mem_singleton.1 hitem⟩

/-- A failed `if` goes on where the program does. -/
theorem lands_failed (htarget : program.otherwise? start = some target)
    (hhead : (trace.state (start + 1)).blocks.head? = some first)
    (hkind : first.kind = .branch label false) : trace.Lands label target := by
  unfold Program.otherwise? at htarget
  split at htarget
  next line hline =>
    cases htarget
    exact lands_otherwise (Program.ofBlock?_eq_some hline).1 hhead hkind
  next hnone =>
    obtain ⟨line, rfl, hclose, -⟩ := Program.behind?_eq_some htarget
    exact lands_without hclose hhead hkind fun turn => Program.ofBlock?_eq_none hnone

/-! ## Lines with a condition -/

/-- A line puts out its items for the open stream, unless it opens or closes a function. -/
theorem Comes.puts_said (hcomes : trace.Comes line after items) {statement : Statement}
    (hsaid : program[line]? = some (some statement)) (hfunction : ∀ name, statement ≠ .function name)
    (hclose : statement ≠ .close) : trace.Puts line (items.map Prod.snd) := by
  obtain ⟨_, others, htells, hdone, -⟩ := trace.tells hsaid
  obtain rfl : others = items := by
    rw [hcomes.done] at hdone
    exact (List.append_cancel_left hdone).symm
  refine hcomes.puts ?_
  have hscope := htells.scope statement rfl hfunction hclose
  rw [List.map_map]
  conv => lhs; rw [← List.map_id others]
  refine List.map_congr_left fun entry hentry => ?_
  rw [← hscope entry hentry]
  rfl

theorem items_tested {scope : Scope} {code : List Instruction} {test more : List (Scope × Item)} :
    (straight scope code ++ (test ++ more)).map Prod.snd =
      code.map Item.instruction ++ (test.map Prod.snd ++ more.map Prod.snd) := by
  rw [List.map_append, List.map_append, straight, List.map_map]
  rfl

theorem reaches_ifGoto (loaded : trace.Loaded size) (h : trace.Follows source view) {name : String}
    (hsaid : program[source.line]? = some (some (.ifGoto condition name)))
    (hperform : program.perform source (.ifGoto condition name) = some next) :
    trace.Reaches size view next := by
  obtain ⟨after, items, hcomes, hcontinues, id, code, flushed, test, hfind, hflushes, hcompared,
    hitems⟩ := trace.comes hsaid
  have hputs := hcomes.puts_said hsaid (by simp) (by simp)
  rw [hitems, ← List.append_nil test, items_tested] at hputs
  obtain ⟨core, console, hstored, hleads, hstands⟩ :=
    h.flush loaded hsaid (by simp) hflushes (hputs.stands hcomes.lt)
  simp only [Program.perform, Option.bind_eq_bind, Option.bind_eq_some_iff] at hperform
  obtain ⟨verdict, hverdict, hnext⟩ := hperform
  obtain ⟨hunbound, core', hstored', hstays, hjumps⟩ :=
    leads_test loaded h.line_le hstored hflushes hcompared hverdict hstands.left
  cases verdict with
  | true =>
    simp only [if_true, Option.bind_eq_some_iff] at hnext
    obtain ⟨target, htarget, hnext⟩ := hnext
    cases hnext
    have hlands := hcomes.lands_named hfind htarget
    exact .of_leads (hleads.trans (hjumps id _ rfl hlands)) (hlands.reaches hstored')
  | false =>
    cases hnext
    refine .of_leads (hleads.trans (hstays rfl))
      (hcomes.reaches_next hputs hcontinues.current hunbound hstored' ?_)
    simp [Nat.add_assoc]

theorem reaches_ifBlock (loaded : trace.Loaded size) (h : trace.Follows source view)
    (hsaid : program[source.line]? = some (some (.ifBlock condition)))
    (hperform : program.perform source (.ifBlock condition) = some next) :
    trace.Reaches size view next := by
  obtain ⟨after, items, hcomes, block, label, code, flushed, test, hkind, -, hcontinues, hflushes,
    hcompared, hitems⟩ := trace.comes hsaid
  have hputs := hcomes.puts_said hsaid (by simp) (by simp)
  rw [hitems, items_tested] at hputs
  obtain ⟨core, console, hstored, hleads, hstands⟩ :=
    h.flush loaded hsaid (by simp) hflushes (hputs.stands hcomes.lt)
  simp only [Program.perform, Option.bind_eq_bind, Option.bind_eq_some_iff] at hperform
  obtain ⟨verdict, hverdict, hnext⟩ := hperform
  obtain ⟨hunbound, core', hstored', hstays, hjumps⟩ :=
    leads_test loaded h.line_le hstored hflushes hcompared hverdict hstands.left
  cases verdict with
  | true =>
    cases hnext
    have hmain := hstands.right.head
    rw [List.length_map] at hmain
    refine .of_leads (hleads.trans ((hstays rfl).trans (View.leads_label hmain)))
      (hcomes.reaches_next hputs hcontinues.current hunbound hstored' ?_)
    simp [Nat.add_assoc]
  | false =>
    simp only [Bool.false_eq_true, if_false, Option.bind_eq_some_iff] at hnext
    obtain ⟨target, htarget, hnext⟩ := hnext
    cases hnext
    -- It fails: the jump is to the other branch, or behind the block.
    have hhead : (trace.state (source.line + 1)).blocks.head? = some block := by
      rw [hcomes.blocks, hcontinues.blocks]
      rfl
    have hlands := lands_failed htarget hhead hkind
    exact .of_leads (hleads.trans (hjumps label _ rfl hlands)) (hlands.reaches hstored')

/-! ## Loops -/

theorem exists_loopLine (trace : Trace program)
    (hsaid : program[line]? = some (some (.loop condition))) : Nonempty (trace.LoopLine line) := by
  obtain ⟨after, items, hcomes, block, check, code, flushed, test, hkind, -, hcontinues, hflushes,
    hcompared, hitems⟩ := trace.comes hsaid
  have hputs := hcomes.puts_said hsaid (by simp) (by simp)
  have hparts : items.map Prod.snd = code.map Item.instruction ++ (.label check (line + 1) ::
      (test.map Prod.snd ++ [.label block.main (line + 1)])) := by
    rw [hitems, List.map_append, straight, List.map_map, List.map_cons, List.map_append]
    rfl
  rw [hparts] at hputs
  refine ⟨⟨condition, block, check, code, flushed, test, after.storage, hsaid, hkind, ?_, hflushes,
    hcompared, hputs, hcomes.storage, hcomes.current.trans hcontinues.current⟩⟩
  rw [hcomes.blocks, hcontinues.blocks]
  rfl

/-- From where the condition of a loop is tested, the code goes on as the program does. -/
theorem LoopLine.reaches (loop : trace.LoopLine source.line) (loaded : trace.Loaded size)
    (hlt : source.line < program.length) (hstored : trace.Stored source core console)
    (hperform : program.perform source (.loop loop.condition) = some next) :
    trace.Reaches size ⟨trace.entry source.line + loop.code.length + 1, core, console⟩ next := by
  have hstands := (loop.puts.stands hlt).right.tail
  rw [List.length_map] at hstands
  simp only [Program.perform, Option.bind_eq_bind, Option.bind_eq_some_iff] at hperform
  obtain ⟨verdict, hverdict, hnext⟩ := hperform
  obtain ⟨hunbound, core', hstored', hstays, hjumps⟩ := leads_test loaded (Nat.le_of_lt hlt) hstored
    loop.flushes loop.compared hverdict hstands.left
  cases verdict with
  | true =>
    cases hnext
    have hmain := hstands.right.head
    rw [List.length_map] at hmain
    -- The condition holds: behind the comparison stands the label of the body.
    have hentry : trace.entry (source.line + 1) =
        trace.entry source.line + loop.code.length + 1 + loop.test.length + 1 := by
      rw [loop.puts.entry_succ loop.current]
      simp [Nat.add_assoc, Nat.add_left_comm, Nat.add_comm 1]
    have hunbound : (trace.state (source.line + 1)).storage.Unbound := by
      intro id
      rw [loop.storage, Storage.register_endStatement]
      exact hunbound id
    refine .of_leads ((hstays rfl).trans (View.leads_label hmain)) ?_
    rw [← hentry]
    exact ⟨_, .refl _, (hstored'.goto _).follows hlt hunbound⟩
  | false =>
    simp only [Bool.false_eq_true, if_false, Option.bind_eq_some_iff] at hnext
    obtain ⟨target, htarget, hnext⟩ := hnext
    cases hnext
    -- It fails: the jump is to the label with which the `end` of the loop ends.
    obtain ⟨line, rfl, hclose, -⟩ := Program.behind?_eq_some htarget
    have hlands := lands_behind hclose loop.head (by simp [loop.kind])
    exact .of_leads (hjumps _ _ rfl hlands) (hlands.reaches hstored')

theorem reaches_loop (loaded : trace.Loaded size) (h : trace.Follows source view)
    (hsaid : program[source.line]? = some (some (.loop condition)))
    (hperform : program.perform source (.loop condition) = some next) :
    trace.Reaches size view next := by
  have hlt := (List.getElem?_eq_some_iff.1 hsaid).1
  have hsame : ∀ loop : trace.LoopLine source.line, loop.condition = condition := by
    intro loop
    have hother := loop.said
    rw [hsaid] at hother
    cases hother
    rfl
  rcases h.position with ⟨hindex, hholds⟩ | ⟨loop, hindex, hmemory⟩
  · obtain ⟨loop⟩ := trace.exists_loopLine hsaid
    have hstands := loop.puts.stands hlt
    obtain ⟨core, hleads, hstored⟩ :=
      leads_flush loaded h.line_le h.carries hholds loop.flushes hstands.left
    have hcheck := hstands.right.head
    rw [List.length_map] at hcheck
    have hview : view = ⟨trace.entry source.line, view.core, view.console⟩ := by rw [← hindex]
    rw [hview]
    rw [← hsame loop] at hperform
    exact .of_leads (hleads.trans (View.leads_label hcheck))
      (loop.reaches loaded hlt hstored hperform)
  · have hview : view = ⟨trace.entry source.line + loop.code.length + 1, view.core, view.console⟩ := by
      rw [← hindex]
    rw [hview]
    rw [← hsame loop] at hperform
    exact loop.reaches loaded hlt ⟨h.carries, hmemory⟩ hperform

theorem loop_of_head (hlt : start < program.length) {check : LabelId}
    (hhead : (trace.state (start + 1)).blocks.head? = some block) (hnumber : block.line = start + 1)
    (hkind : block.kind = .loop check) :
    ∃ condition, program[start]? = some (some (.loop condition)) := by
  obtain ⟨said, hsaid⟩ : ∃ said, program[start]? = some said := ⟨_, List.getElem?_eq_getElem hlt⟩
  -- Blocks that were open before come from lines above.
  have hnew : block ∉ (trace.state start).blocks := by
    intro hold
    have hle := ((trace.ranged (Nat.le_of_lt hlt)).blocks block hold).line.2
    omega
  obtain ⟨begun, hbegins, hc⟩ := trace.begins hsaid
  rw [hc.blocks] at hhead
  have hmem := List.mem_of_mem_head? hhead
  cases hbegins with
  | stays _ => exact absurd hmem hnew
  | declares _ => exact absurd hmem hnew
  | branches _ kind =>
    cases hhead
    rw [hkind] at kind
    cases kind
  | loops _ _ => exact ⟨_, hsaid⟩
  | otherwise opened _ =>
    cases hhead
    cases hkind
  | closes opened =>
    refine absurd ?_ hnew
    rw [opened]
    exact List.mem_cons_of_mem _ hmem
  | defines _ kind _ =>
    cases hhead
    rw [hkind] at kind
    cases kind

/-- The end of a loop goes back to its condition. -/
theorem Stored.repeats (hstored : trace.Stored source core console) (loaded : trace.Loaded size)
    (loop : trace.LoopLine start) (hlt : start < program.length) {number : Nat}
    (hitem : trace.items[index]? = some (.goto loop.check number)) :
    trace.Reaches size ⟨index, core, console⟩ (source.goto start) := by
  have hcheck := (loop.puts.stands hlt).right.head
  rw [List.length_map] at hcheck
  exact ⟨_, View.leads_goto loaded.linked hitem hcheck, Nat.le_of_lt hlt,
    (hstored.goto start).carries, .check loop rfl hstored.memory⟩

/-! ## The other branch -/

/-- At an `else`, the first branch is over. -/
theorem reaches_otherwise (loaded : trace.Loaded size) (h : trace.Follows source view)
    (hsaid : program[source.line]? = some (some .otherwise))
    (hperform : program.perform source .otherwise = some next) : trace.Reaches size view next := by
  obtain ⟨after, items, hcomes, block, label, outer, code, hblocks, hkind, hcontinues, hflushes,
    hitems⟩ := trace.comes hsaid
  have hputs := hcomes.puts_straight
    [.goto block.after (source.line + 1), .label label (source.line + 1)] hitems
  obtain ⟨core, console, hstored, hleads, hstands⟩ :=
    h.flush loaded hsaid (by simp) hflushes (hputs.stands hcomes.lt)
  obtain ⟨start, first, hopened⟩ := trace.opened h.line_le (show block ∈ _ by simp [hblocks])
  have hstart : (program.outline source.line).blocks.head? = some (.branch, start) := by
    rw [(trace.tracks h.line_le).blocks, hblocks]
    simp [Block.opener, hkind, hopened.number]
  simp only [Program.perform, hstart, Option.bind_eq_bind, Option.bind_eq_some_iff,
    Option.some.injEq] at hperform
  obtain ⟨_, rfl, target, htarget, hnext⟩ := hperform
  cases hnext
  obtain ⟨line, rfl, hclose, -⟩ := Program.behind?_eq_some htarget
  obtain rfl : block = first := hopened.became.eq_of_kind (by simp [hkind])
  have hlands := lands_behind hclose hopened.head (by simp [hkind])
  exact .of_leads hleads (hlands.goto loaded hstands.head hstored)

end Trace

end ByteBasic
