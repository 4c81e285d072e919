import ByteBasic.Proofs.Program.Branching

/-!
# Functions follow the program

A function has a stream of its own, which starts with its label. A call pushes the offset of the item
behind it, where the line behind the call starts, and a return goes there (`Trace.Returns`). The
program itself skips the lines of a function: for the global code they are not there
(`Trace.entry_behind`).
-/

namespace ByteBasic

open Source (Program Outline State)
open Build (Continues straight streamBehind)
open Storage (Flushes)

namespace Trace

variable {program : Program} {trace : Trace program} {line size index target start : Nat}
variable {source next : State} {view : View} {core : Core} {console : Console} {name : String}

/-! ## Returns -/

theorem Stored.returns (hstored : trace.Stored source core console)
    (hitem : trace.items[index]? = some .ret) (hback : source.back = some next) :
    trace.Reaches size ⟨index, core, console⟩ next := by
  have hstacked := hstored.carries.stack
  unfold State.back at hback
  cases hpending : source.pending with
  | nil =>
    rw [hpending] at hback
    cases hback
  | cons line lines =>
    rw [hpending] at hback hstacked
    cases hback
    cases hstack : core.stack with
    | nil =>
      rw [hstack] at hstacked
      exact hstacked.elim
    | cons back stack =>
      rw [hstack] at hstacked
      obtain ⟨hreturns, hstacked⟩ := hstacked
      refine ⟨_, View.leads_ret hitem hstack hreturns.entry_le hreturns.offset, ?_⟩
      have hpopped : trace.Stored { source with line := line, pending := lines }
          { core with stack := stack } console :=
        ⟨⟨hstored.carries.running, hstacked, hstored.carries.exitCode, hstored.carries.console⟩,
          hstored.memory⟩
      exact hpopped.follows hreturns.line_le hreturns.unbound

theorem reaches_ret (loaded : trace.Loaded size) (h : trace.Follows source view)
    (hsaid : program[source.line]? = some (some .ret)) (hback : source.back = some next) :
    trace.Reaches size view next := by
  obtain ⟨after, items, hcomes, -, code, hflushes, hitems⟩ := trace.comes hsaid
  have hputs := hcomes.puts_straight [.ret] hitems
  obtain ⟨core, console, hstored, hleads, hstands⟩ :=
    h.flush loaded hsaid (by simp) hflushes (hputs.stands hcomes.lt)
  exact .of_leads hleads (hstored.returns hstands.head hback)

/-- The end of a block goes on behind it, tests the condition of a loop again or returns. -/
theorem reaches_close (loaded : trace.Loaded size) (h : trace.Follows source view)
    (hsaid : program[source.line]? = some (some .close))
    (hperform : program.perform source .close = some next) : trace.Reaches size view next := by
  obtain ⟨after, items, hcomes, block, outer, code, hblocks, hcontinues, hflushes, hitems⟩ :=
    trace.comes hsaid
  have hputs := hcomes.puts_straight _ hitems
  obtain ⟨core, console, hstored, hleads, hstands⟩ :=
    h.flush loaded hsaid (by simp) hflushes (hputs.stands hcomes.lt)
  have hunbound := hflushes.vacant.toUnbound hflushes.serves.tidy
  obtain ⟨start, first, hopened⟩ := trace.opened h.line_le (show block ∈ _ by simp [hblocks])
  have hhead : (program.outline source.line).blocks.head? = some (block.opener, start) := by
    rw [(trace.tracks h.line_le).blocks, hblocks]
    simp [hopened.number]
  refine .of_leads hleads ?_
  simp only [Program.perform, hhead] at hperform
  rcases hkind : block.kind with ⟨label, hasElse⟩ | ⟨check⟩ | ⟨id⟩
  · simp only [Block.opener, hkind] at hperform
    cases hperform
    -- A branch ends with labels, which do nothing.
    have hcurrent : after.current = (trace.state source.line).current := by
      rw [hcontinues.current]
      simp [streamBehind, Build.isFunctionBlock, hkind]
    refine .of_leads (leads_labels hstands (Block.labels_of_branch hkind _))
      (hcomes.reaches_next hputs hcurrent hunbound hstored ?_)
    simp [Nat.add_assoc]
  · simp only [Block.opener, hkind] at hperform
    cases hperform
    -- A loop goes back to the label that its `while` line has placed.
    obtain rfl : block = first := hopened.became.eq_of_kind (by simp [hkind])
    have hlt := Nat.lt_trans hopened.before hcomes.lt
    obtain ⟨condition, hloop⟩ := loop_of_head hlt hopened.head hopened.number hkind
    obtain ⟨loop⟩ := trace.exists_loopLine hloop
    have hsame : loop.check = check := by
      have hblock := loop.head
      rw [hopened.head] at hblock
      cases hblock
      have hcheck := loop.kind
      rw [hkind] at hcheck
      cases hcheck
      rfl
    have hitem := hstands
    simp only [Block.close, hkind, ← hsame] at hitem
    exact hstored.repeats loaded loop hlt hitem.head
  · -- A function returns to the line behind the newest call.
    simp only [Block.opener, hkind] at hperform
    have hitem := hstands
    simp only [Block.close, hkind] at hitem
    exact hstored.returns hitem.head hperform

/-! ## Definitions -/

/-- The program goes on behind a function where it came to it. -/
theorem reaches_function (loaded : trace.Loaded size) (h : trace.Follows source view)
    (hsaid : program[source.line]? = some (some (.function name)))
    (hperform : program.perform source (.function name) = some next) :
    trace.Reaches size view next := by
  obtain ⟨core, console, rfl, hcarries, hholds⟩ := h.start hsaid (by simp)
  obtain ⟨after, items, hcomes, block, code, hglobal, -, -, -, -, -, hflushes, hitems⟩ :=
    trace.comes hsaid
  simp only [Program.perform, Option.bind_eq_bind, Option.bind_eq_some_iff] at hperform
  obtain ⟨target, htarget, hnext⟩ := hperform
  cases hnext
  obtain ⟨line, rfl, hclose, hfirst⟩ := Program.behind?_eq_some htarget
  obtain ⟨hcurrent, hentry⟩ := trace.entry_behind hsaid hclose hfirst
  -- The line puts out write-backs for the global stream and the label for its own.
  have hdone : trace.done (source.line + 1) = trace.done source.line ++
      (code.map Item.instruction).map (fun item => (Scope.global, item)) ++
        [Item.label block.main (source.line + 1)].map fun item =>
          (Scope.function (trace.state source.line).functions.length, item) := by
    rw [hcomes.done, hitems, straight_eq_map, List.append_assoc]
    rfl
  have hstands : Stands trace.items (trace.entry source.line) (code.map Item.instruction) := by
    have hpart := trace.stands hcomes.lt [] _ (fun id hid => (by cases hid))
      (hdone.trans (List.append_assoc ..))
    rwa [List.append_nil, ← hglobal] at hpart
  -- Until the body ends nothing else is global, so the code goes on behind the write-backs.
  have hbehind : trace.entry (line + 1) = trace.entry source.line + code.length := by
    rw [hentry, hdone, place_other _ _ (by simp), place_same, List.length_map, entry, hglobal]
  obtain ⟨core', hleads, hstored⟩ := leads_flush loaded h.line_le hcarries hholds hflushes hstands
  refine .of_leads hleads ?_
  rw [← hbehind]
  obtain ⟨closed, _, hcloses, _, _, _, -, -, hvacant, -⟩ := trace.comes hclose.1
  exact ⟨_, .refl _, (hstored.goto _).follows hcloses.lt
    (hcloses.unbound (hvacant.vacant.toUnbound hvacant.serves.tidy))⟩

theorem lands_main (hsaid : program[start]? = some (some (.function name))) {function : Function}
    (hfunction : (trace.state (start + 1)).functions[(trace.state start).functions.length]? =
      some function) : trace.Lands function.main (start + 1) := by
  obtain ⟨after, items, hcomes, block, code, hglobal, -, -, -, -, hcontinues, hflushes, hitems⟩ :=
    trace.comes hsaid
  obtain ⟨scope, hscope⟩ : ∃ scope, scope = Scope.function (trace.state start).functions.length :=
    ⟨_, rfl⟩
  have hadded : (trace.state (start + 1)).functions =
      (trace.state start).functions ++ [⟨name, block.main⟩] := by
    rw [hcomes.functions, hcontinues.functions]
  have hmain : function = ⟨name, block.main⟩ := by
    rw [hadded, List.getElem?_concat_length] at hfunction
    exact (Option.some.inj hfunction).symm
  -- The stream of the function exists from here on, and so it does in the end.
  have hexists : scope.Exists trace.functions := by
    have hle := (trace.counts_grow (Nat.succ_le_of_lt hcomes.lt) (Nat.le_refl _)).1
    rw [hadded, List.length_append] at hle
    intro id hid
    cases hscope.symm.trans hid
    exact hle
  have hdone : trace.done (start + 1) = trace.done start ++ straight .global code ++
      [Item.label block.main (start + 1)].map fun item => (scope, item) := by
    rw [hcomes.done, hitems, hscope, List.append_assoc]
    rfl
  have hstands := trace.stands hcomes.lt (straight .global code) [] hexists
    (by rw [hdone, List.append_nil, List.append_assoc])
  -- The next line starts right behind the label, which is the first item of that stream.
  have hentry : trace.entry (start + 1) =
      place trace.out (trace.done start ++ straight .global code) scope + 1 := by
    rw [entry, hcomes.current, hcontinues.current, ← hscope, hdone, place_same]
    rfl
  rw [hmain]
  refine ⟨hcomes.lt, hcomes.unbound (hflushes.vacant.toUnbound hflushes.serves.tidy),
    _, _, hstands.head, fun size core console => ?_⟩
  rw [hentry]
  exact .refl _

/-! ## Calls -/

/-- A name means the same function to the program and to the compiler. -/
theorem lands_called (hle : line ≤ program.length) {function : Function}
    (hfunction : Build.function? (trace.state line) name = some function) {known : String}
    (hfind : (program.outline line).functions.find? (fun (known, _) => known == name) =
      some (known, start)) : trace.Lands function.main (start + 1) := by
  have hindex : (program.outline line).functions.findIdx (fun (known, _) => known == name) =
      (trace.state line).functions.findIdx fun function => function.name == name := by
    have hmap := congrArg (List.findIdx (· == name)) (trace.tracks hle).functions
    rwa [List.findIdx_map, List.findIdx_map] at hmap
  rw [Build.function?, List.find?_eq_getElem?_findIdx] at hfunction
  rw [List.find?_eq_getElem?_findIdx, hindex] at hfind
  obtain ⟨first, -, hsaid, hknown, hlength, hfirst⟩ := trace.founded hle hfunction
  rw [hfind] at hknown
  cases hknown
  rw [← hlength] at hfirst
  exact lands_main hsaid hfirst

/-- A call that is the last item of its line comes back to the next line. -/
theorem Comes.returns {after : BuildState} {items : List (Scope × Item)} {part : List Item}
    {main : LabelId} {number : Nat} {back : UInt8} (hcomes : trace.Comes line after items)
    (hputs : trace.Puts line (part ++ [.call main number]))
    (hcurrent : after.current = (trace.state line).current) (hunbound : after.storage.Unbound)
    (hitem : trace.items[trace.entry line + part.length]? = some (.call main number))
    (hback : back.toNat = itemOffset trace.items (trace.entry line + part.length + 1)) :
    trace.Returns (line + 1) back := by
  have hentry : trace.entry (line + 1) = trace.entry line + part.length + 1 := by
    rw [hputs.entry_succ (hcomes.current.trans hcurrent), List.length_append, ← Nat.add_assoc]
    rfl
  refine ⟨hcomes.lt, ?_, ?_, hcomes.unbound hunbound⟩
  · rw [hentry]
    exact (List.getElem?_eq_some_iff.1 hitem).1
  · rw [hentry]
    exact hback

/-- A call goes to the first line of a function, to come back to the next line. -/
theorem reaches_call (loaded : trace.Loaded size) (h : trace.Follows source view)
    (hsaid : program[source.line]? = some (some (.call name [])))
    (hname : Builtin.ofName? name = none) {known : String}
    (hfind : (program.outline source.line).functions.find? (fun (known, _) => known == name) =
      some (known, start)) (henter : source.enter (start + 1) = some next) :
    trace.Reaches size view next := by
  obtain ⟨after, items, hcomes, hcontinues, hcalled⟩ := trace.comes hsaid
  simp only [Build.Called, hname] at hcalled
  obtain ⟨function, code, hfunction, hflushes, hitems⟩ := hcalled
  have hputs := hcomes.puts_straight [.call function.main (source.line + 1)] hitems
  obtain ⟨core, console, hstored, hleads, hstands⟩ :=
    h.flush loaded hsaid (by simp) hflushes (hputs.stands hcomes.lt)
  have hlands := lands_called h.line_le hfunction hfind
  obtain ⟨place, _, hplaced, hbody⟩ := hlands.placed
  unfold State.enter at henter
  split at henter
  case isFalse => cases henter
  case isTrue hroom =>
    cases henter
    have hcall := hstands.head
    have hstacked := hstored.carries.stack
    -- The stack has a byte for each pending call, of which the program allows no more.
    have hlimit : core.stack.length < stackLimit := by
      rw [← hstacked.length_eq]
      exact hroom
    obtain ⟨back, hback, hcalls⟩ := View.leads_call loaded.linked hcall hplaced hlimit
    have hreturns : trace.Returns (source.line + 1) back :=
      hcomes.returns hputs hcontinues.current (hflushes.vacant.toUnbound hflushes.serves.tidy)
        (by rw [List.length_map]; exact hcall) (by rw [List.length_map]; exact hback)
    -- Behind the label of the function, everything is in its slot.
    have hentered : trace.Stored
        { source with line := start + 1, pending := (source.line + 1) :: source.pending }
        { core.setReg 0 back with stack := back :: core.stack } console :=
      ⟨⟨hstored.carries.running, ⟨hreturns, hstacked⟩, hstored.carries.exitCode,
        hstored.carries.console⟩, hstored.memory⟩
    exact .of_leads (hleads.trans (hcalls.trans (hbody _ _ _)))
      ⟨_, .refl _, hentered.follows hlands.line_le hlands.unbound⟩

end Trace

end ByteBasic
