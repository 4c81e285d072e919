import ByteBasic.Proofs.Program.Following

/-!
# Jumps follow the program

Before control goes elsewhere, a line writes everything back, so that all bytes are in their slots
(`leads_flush`). A condition is tested on them (`leads_test`), and a jump to a label leads to the line
behind the one that placed it (`Lands`), which wants its variables in their slots, too.
-/

namespace ByteBasic

open Source (Program Outline State)
open Build (Continues Compared straight)
open Storage (Holds Flushes)

namespace Trace

variable {program : Program} {trace : Trace program} {line size index target : Nat}
variable {source next : State} {view : View} {core : Core} {console : Console}
variable {after : BuildState} {items : List (Scope × Item)} {part rest : List Item}
variable {label : LabelId}

/-! ## Labels -/

/-- A jump to a label leads to a line, at which everything is in its slot. -/
structure Lands (trace : Trace program) (label : LabelId) (target : Nat) : Prop where
  line_le : target ≤ program.length
  unbound : (trace.state target).storage.Unbound
  placed : ∃ index number, trace.items[index]? = some (.label label number) ∧
    ∀ size core console, View.Leads trace.items size ⟨index + 1, core, console⟩
      ⟨trace.entry target, core, console⟩

theorem leads_labels (hstands : Stands trace.items index part)
    (hlabels : ∀ item ∈ part, ∃ id number, item = .label id number) :
    View.Leads trace.items size ⟨index, core, console⟩
      ⟨index + part.length, core, console⟩ := by
  induction part generalizing index with
  | nil => exact .refl _
  | cons item part ih =>
    obtain ⟨id, number, rfl⟩ := hlabels item (by simp)
    have hlength : index + (Item.label id number :: part).length = index + 1 + part.length := by
      rw [List.length_cons]
      omega
    rw [hlength]
    exact (View.leads_label hstands.head).trans
      (ih hstands.tail fun item hitem => hlabels item (by simp [hitem]))

/-- A label with which a line ends, but for other labels. -/
theorem Comes.lands (hcomes : trace.Comes line after items)
    (hputs : trace.Puts line (part ++ .label label (line + 1) :: rest))
    (hrest : ∀ item ∈ rest, ∃ id number, item = .label id number)
    (hcurrent : after.current = (trace.state line).current) (hunbound : after.storage.Unbound) :
    trace.Lands label (line + 1) where
  line_le := hcomes.lt
  unbound := hcomes.unbound hunbound
  placed := by
    have hstands := (hputs.stands hcomes.lt).right
    refine ⟨_, _, hstands.head, fun size core console => ?_⟩
    rw [hputs.entry_succ (hcomes.current.trans hcurrent), List.length_append, List.length_cons,
      show trace.entry line + (part.length + (rest.length + 1)) =
        trace.entry line + part.length + 1 + rest.length by omega]
    exact leads_labels hstands.tail hrest

/-! ## Leaving a line -/

theorem Stored.goto (h : trace.Stored source core console) (target : Nat) :
    trace.Stored (source.goto target) core console :=
  ⟨⟨h.carries.running, h.carries.stack, h.carries.exitCode, h.carries.console⟩, h.memory⟩

theorem Lands.reaches (hlands : trace.Lands label target)
    (hstored : trace.Stored source core console) :
    trace.Reaches size ⟨trace.entry target, core, console⟩ (source.goto target) :=
  ⟨_, .refl _, (hstored.goto target).follows hlands.line_le hlands.unbound⟩

theorem Lands.goto (hlands : trace.Lands label target) (loaded : trace.Loaded size) {number : Nat}
    (hitem : trace.items[index]? = some (.goto label number))
    (hstored : trace.Stored source core console) :
    trace.Reaches size ⟨index, core, console⟩ (source.goto target) := by
  obtain ⟨place, _, hplaced, hleads⟩ := hlands.placed
  exact .of_leads ((View.leads_goto loaded.linked hitem hplaced).trans (hleads _ _ _))
    (hlands.reaches hstored)

theorem leads_flush (loaded : trace.Loaded size) (hline : source.line ≤ program.length)
    (hcarries : trace.Carries source core console)
    (hholds : (trace.state source.line).storage.Holds trace.total core source.value)
    {code : List Instruction} {flushed : Storage}
    (hflushes : Flushes (trace.state source.line).storage code flushed)
    (hstands : Stands trace.items index (code.map Item.instruction)) :
    ∃ core', View.Leads trace.items size ⟨index, core, console⟩
        ⟨index + code.length, core', console⟩ ∧ trace.Stored source core' console := by
  have hserves := hflushes.serves
  have hspares := hserves.spares .singleBit core hholds.coherent
  have hflushed := hholds.spares (trace.tidy hline) trace.total_le hserves.same hspares
  refine ⟨_, View.leads_calm (loaded.clearAt hline) (hserves.calm trivial) hstands, ?_, ?_⟩
  · have hcarried := hcarries.of_rest hspares.rest rfl rfl (List.append_nil _).symm
    exact hcarried
  · exact hflushed.memory hserves.tidy (hflushes.vacant.toUnbound hserves.tidy)

/-! ## Conditions -/

/-- A condition that has a value is tested by calm code and a comparison that comes out as it does. -/
theorem tests_of_compared {outline : Outline} {scope : Scope} {total : Nat} {before after : Storage}
    {condition : Condition} {accept reject : Target} {number : Nat} {test : List (Scope × Item)}
    (hcompared : Compared condition accept reject number scope before after test)
    (hholds : before.Holds total core source.value)
    (names : ∀ name, outline.lookup? name = before.lookup? name scope) {verdict : Bool}
    (hverdict : outline.holds? source condition = some verdict) :
    ∃ code comparison register used,
      test.map Prod.snd =
        code.map Item.instruction ++ [.compare comparison register accept reject number] ∧
      Storage.Serves True used before code after ∧ after.Unbound ∧
      comparison.holds ((core.executeAll .singleBit code).reg register)
        ((core.executeAll .singleBit code).reg 0) = verdict := by
  -- Both sides have bytes, so they are variables or numbers.
  simp only [Outline.holds?, Option.bind_eq_bind, Option.bind_eq_some_iff] at hverdict
  obtain ⟨l, hl, r, hr, hverdict⟩ := hverdict
  obtain ⟨left, hleft, hleftValue⟩ := hholds.eval? names hl
  obtain ⟨right, hright, hrightValue⟩ := hholds.eval? names hr
  obtain ⟨left', right', code, comparison, register, hleft', hright', rfl, hunbound, ⟨used, htest⟩,
    hresult⟩ := hcompared
  rw [hleft] at hleft'
  rw [hright] at hright'
  cases hleft'
  cases hright'
  refine ⟨code, comparison, register, used, ?_, htest.weaken (fun _ => ?_) fun _ hr => hr, hunbound, ?_⟩
  · rw [List.map_append, straight, List.map_map]
    rfl
  · exact ⟨Referent.portless_of_value? hleftValue, Referent.portless_of_value? hrightValue⟩
  · rw [hresult .singleBit core, (Referent.value_of_value? hleftValue).2,
      (Referent.value_of_value? hrightValue).2]
    exact Option.some.inj hverdict

/-- A test on bytes that are in their slots comes out as the condition does. -/
theorem leads_test (loaded : trace.Loaded size) (hline : line ≤ program.length)
    (hstored : trace.Stored source core console) {code : List Instruction} {flushed after : Storage}
    (hflushes : Flushes (trace.state line).storage code flushed) {condition : Condition}
    {accept reject : Target} {number : Nat} {test : List (Scope × Item)}
    (hcompared : Compared condition accept reject number (trace.state line).current flushed after
      test) {verdict : Bool}
    (hverdict : (program.outline line).holds? source condition = some verdict)
    (hstands : Stands trace.items index (test.map Prod.snd)) :
    after.Unbound ∧ ∃ core', trace.Stored source core' console ∧
      ((if verdict then accept else reject) = .next → View.Leads trace.items size
        ⟨index, core, console⟩ ⟨index + test.length, core', console⟩) ∧
      ∀ label target, (if verdict then accept else reject) = .label label →
        trace.Lands label target → View.Leads trace.items size ⟨index, core, console⟩
          ⟨trace.entry target, core', console⟩ := by
  have hserves := hflushes.serves
  have hunbound := hflushes.vacant.toUnbound hserves.tidy
  have hvars : flushed.vars.length ≤ trace.total := by
    rw [hserves.same.length_eq]
    exact (trace.counts_grow hline (Nat.le_refl _)).2
  -- Everything is in its slot before the test, and the test moves nothing out of it.
  have hholds : flushed.Holds trace.total core source.value :=
    .of_memory hserves.tidy hunbound hvars hstored.memory
  have names : ∀ name, (program.outline line).lookup? name =
      flushed.lookup? name (trace.state line).current := by
    intro name
    rw [hserves.same.lookup?_eq, (trace.tracks hline).lookup?]
  obtain ⟨code', comparison, register, used, hitems, htest, hafter, hresult⟩ :=
    tests_of_compared hcompared hholds names hverdict
  have hspares := htest.spares .singleBit core hholds.coherent
  have hclear := clear_of_same hserves.same.symm (loaded.clearAt hline)
  have htested := hholds.spares hserves.tidy trace.total_le htest.same hspares
  have hlength : test.length = code'.length + 1 := by
    have hlength := congrArg List.length hitems
    simpa using hlength
  rw [hitems] at hstands
  have hcompare := hstands.right.head
  rw [List.length_map] at hcompare
  -- The code of the sides, and then the comparison, to wherever its target is.
  have hgo : ∀ next, (if verdict then accept else reject).index? trace.items
      (index + code'.length) = some next → View.Leads trace.items size ⟨index, core, console⟩
        ⟨next, core.executeAll .singleBit code', console⟩ := by
    intro next hnext
    refine (View.leads_calm hclear (htest.calm trivial) hstands.left).trans
      (View.leads_compare hcompare ?_)
    rw [hresult]
    exact hnext
  refine ⟨hafter, core.executeAll .singleBit code', ⟨?_, ?_⟩, fun hnext => ?_,
    fun label target hlabel hlands => ?_⟩
  · exact hstored.carries.of_rest hspares.rest rfl rfl (List.append_nil _).symm
  · exact htested.memory htest.tidy hafter
  · refine hgo _ ?_
    rw [hnext, hlength]
    rfl
  · obtain ⟨place, _, hplaced, hleads⟩ := hlands.placed
    obtain ⟨first, hfirst, hlabels⟩ := View.leads_placed loaded.linked hplaced
    refine (hgo first ?_).trans ((hlabels _ _).trans (hleads _ _ _))
    rw [hlabel]
    exact hfirst

/-! ## Labels and jumps to them -/

theorem Comes.puts_straight (hcomes : trace.Comes line after items) (part : List Item)
    {code : List Instruction}
    (hitems : items = straight (trace.state line).current code ++
      part.map fun item => ((trace.state line).current, item)) :
    trace.Puts line (code.map Item.instruction ++ part) :=
  hcomes.puts (by rw [hitems, straight_eq_map, List.map_append])

/-- Behind the code of a line, with everything in its slot, comes the next line. -/
theorem Comes.reaches_next (hcomes : trace.Comes source.line after items)
    (hputs : trace.Puts source.line part)
    (hcurrent : after.current = (trace.state source.line).current)
    (hunbound : after.storage.Unbound) (hstored : trace.Stored source core console)
    (hindex : index = trace.entry source.line + part.length) :
    trace.Reaches size ⟨index, core, console⟩ source.next := by
  rw [hindex, ← hputs.entry_succ (hcomes.current.trans hcurrent)]
  exact ⟨_, .refl _, (hstored.goto _).follows hcomes.lt (hcomes.unbound hunbound)⟩

theorem ofLabel?_eq_some {name : String} (h : program.ofLabel? name = some line) :
    program[line]? = some (some (.label name)) := by
  have hline := (List.find?_range_eq_some.1 h).1
  rwa [beq_iff_eq, Option.join_eq_some_iff] at hline

/-- A name of a label leads behind the line with the label. -/
theorem Comes.lands_named (hcomes : trace.Comes line after items) {name : String}
    (hfind : after.labels.find? name = some label) (htarget : program.ofLabel? name = some target) :
    trace.Lands label (target + 1) := by
  obtain ⟨placed, out, hplaced, hcontinues, other, code, hother, hflushes, hitems⟩ :=
    trace.comes (ofLabel?_eq_some htarget)
  have hlast : ∀ {line after items name id}, trace.Comes line after items →
      after.labels.find? name = some id →
        (trace.state program.length).labels.find? name = some id := by
    intro line after items name id hcomes hfind
    rw [← hcomes.labels] at hfind
    exact (trace.labels_grow (Nat.succ_le_of_lt hcomes.lt) (Nat.le_refl _)).find? hfind
  have hsame := hlast hplaced hother
  rw [hlast hcomes hfind] at hsame
  cases hsame
  exact hplaced.lands (hplaced.puts_straight [.label label (target + 1)] hitems) (by simp)
    hcontinues.current (hflushes.vacant.toUnbound hflushes.serves.tidy)

/-- The code of a line up to where everything is written back. -/
theorem Follows.flush (h : trace.Follows source view) (loaded : trace.Loaded size)
    {said : Option Statement} (hsaid : program[source.line]? = some said)
    (hloop : ∀ condition, said ≠ some (.loop condition)) {code : List Instruction}
    {flushed : Storage} (hflushes : Flushes (trace.state source.line).storage code flushed)
    (hstands : Stands trace.items (trace.entry source.line) (code.map Item.instruction ++ part)) :
    ∃ core console, trace.Stored source core console ∧
      view.Leads trace.items size ⟨trace.entry source.line + code.length, core, console⟩ ∧
      Stands trace.items (trace.entry source.line + code.length) part := by
  obtain ⟨core, console, rfl, hcarries, hholds⟩ := h.start hsaid hloop
  obtain ⟨core', hleads, hstored⟩ :=
    leads_flush loaded h.line_le hcarries hholds hflushes hstands.left
  refine ⟨core', console, hstored, hleads, ?_⟩
  have hrest := hstands.right
  rwa [List.length_map] at hrest

theorem reaches_label (loaded : trace.Loaded size) (h : trace.Follows source view) {name : String}
    (hsaid : program[source.line]? = some (some (.label name))) :
    trace.Reaches size view source.next := by
  obtain ⟨after, items, hcomes, hcontinues, id, code, -, hflushes, hitems⟩ := trace.comes hsaid
  have hputs := hcomes.puts_straight [.label id (source.line + 1)] hitems
  obtain ⟨core, console, hstored, hleads, hstands⟩ :=
    h.flush loaded hsaid (by simp) hflushes (hputs.stands hcomes.lt)
  refine .of_leads (hleads.trans (View.leads_label hstands.head)) (hcomes.reaches_next hputs
    hcontinues.current (hflushes.vacant.toUnbound hflushes.serves.tidy) hstored ?_)
  simp [Nat.add_assoc]

theorem reaches_goto (loaded : trace.Loaded size) (h : trace.Follows source view) {name : String}
    (hsaid : program[source.line]? = some (some (.goto name)))
    (htarget : program.ofLabel? name = some target) :
    trace.Reaches size view (source.goto (target + 1)) := by
  obtain ⟨after, items, hcomes, hcontinues, id, code, hfind, hflushes, hitems⟩ := trace.comes hsaid
  have hputs := hcomes.puts_straight [.goto id (source.line + 1)] hitems
  obtain ⟨core, console, hstored, hleads, hstands⟩ :=
    h.flush loaded hsaid (by simp) hflushes (hputs.stands hcomes.lt)
  exact .of_leads hleads ((hcomes.lands_named hfind htarget).goto loaded hstands.head hstored)

end Trace

end ByteBasic
