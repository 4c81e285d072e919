import ByteBasic.Proofs.Program.Holding
import ByteBasic.Proofs.Program.Placement

/-!
# Compiled code follows the program

`Trace.Follows` relates a program under way with its compiled code under way: the code is at the place
of the next line, every variable has its byte where the storage says, the stack has the offsets of the
lines that pending calls go back to, and the console received what was written.

Here are the relation and the statements that only compute: what such a line puts out is straight code
that leads to the next line.
-/

namespace ByteBasic

open Source (Program Outline State)
open Build (Continues Says Compiled Compared straight Audible)
open Storage (Holds Flushes Assigns Spares)

theorem turned_eq (byte : UInt8) : Source.turned byte = Core.rotateRight byte 1 := by
  apply UInt8.toBitVec_inj.1
  simp only [Source.turned, Core.rotateRight, UInt8.toBitVec_or, UInt8.toBitVec_shiftRight,
    UInt8.toBitVec_shiftLeft]
  rfl

theorem straight_eq_map (scope : Scope) (code : List Instruction) :
    straight scope code = (code.map Item.instruction).map fun item => (scope, item) := by
  rw [straight, List.map_map]
  rfl

namespace Trace

variable {program : Program} (trace : Trace program) {line size : Nat}

/-- The program is in memory: jumps and returns are in reach, and slots are behind the code. -/
structure Loaded (size : Nat) : Prop where
  linked : Linked trace.items
  clear : ∀ id < trace.total, size ≤ (slot id).toNat

/-- A byte that a return goes to a line with. -/
structure Returns (line : Nat) (back : UInt8) : Prop where
  line_le : line ≤ program.length
  entry_le : trace.entry line ≤ trace.items.length
  offset : back.toNat = itemOffset trace.items (trace.entry line)
  unbound : (trace.state line).storage.Unbound

/-- The stack has the bytes for the lines that pending calls go back to. -/
def Stacked : List Nat → List UInt8 → Prop
  | [], [] => True
  | line :: lines, back :: stack => trace.Returns line back ∧ Stacked lines stack
  | _, _ => False

theorem Stacked.length_eq {lines : List Nat} {stack : List UInt8} (h : trace.Stacked lines stack) :
    lines.length = stack.length := by
  induction lines generalizing stack with
  | nil =>
    cases stack with
    | nil => rfl
    | cons _ _ => exact h.elim
  | cons line lines ih =>
    cases stack with
    | nil => exact h.elim
    | cons back stack => rw [List.length_cons, List.length_cons, ih h.2]

/-- A `while` line, taken apart: its condition is tested behind the label that its end goes to. -/
structure LoopLine (line : Nat) where
  condition : Condition
  block : Block
  check : LabelId
  code : List Instruction
  flushed : Storage
  test : List (Scope × Item)
  after : Storage
  said : program[line]? = some (some (.loop condition))
  kind : block.kind = .loop check
  head : (trace.state (line + 1)).blocks.head? = some block
  flushes : Flushes (trace.state line).storage code flushed
  compared : Compared condition .next (.label block.after) (line + 1) (trace.state line).current
    flushed after test
  puts : trace.Puts line (code.map Item.instruction ++
    (.label check (line + 1) :: (test.map Prod.snd ++ [.label block.main (line + 1)])))
  storage : (trace.state (line + 1)).storage = (Storage.endStatement.run after).state
  current : (trace.state (line + 1)).current = (trace.state line).current

/-- What the code has besides the bytes of the variables. -/
structure Carries (source : State) (core : Core) (console : Console) : Prop where
  running : source.exitCode = none
  stack : trace.Stacked source.pending core.stack
  exitCode : core.exitCode = 0
  console : console = Console.empty.receiveAll source.output

/-- The bytes of all variables are in their slots. -/
structure Stored (source : State) (core : Core) (console : Console) : Prop where
  carries : trace.Carries source core console
  memory : ∀ id < trace.total, core.mem (slot id) = source.value id

/-- Where the code is at a line: at its start, or, at a `while`, where its condition is tested. -/
inductive Position (source : State) (view : View) : Prop
  | start (index : view.index = trace.entry source.line)
      (holds : (trace.state source.line).storage.Holds trace.total view.core source.value)
  | check (loop : trace.LoopLine source.line)
      (index : view.index = trace.entry source.line + loop.code.length + 1)
      (memory : ∀ id < trace.total, view.core.mem (slot id) = source.value id)

/-- The compiled code has come to where the program is. -/
structure Follows (source : State) (view : View) : Prop where
  line_le : source.line ≤ program.length
  carries : trace.Carries source view.core view.console
  position : trace.Position source view

/-- Compiled code can go on to where the program is. -/
def Reaches (size : Nat) (view : View) (source : State) : Prop :=
  ∃ after, view.Leads trace.items size after ∧ trace.Follows source after

variable {trace} {source next : State} {view : View} {core core' : Core} {console : Console}

theorem Reaches.of_leads {before : View} (hleads : before.Leads trace.items size view)
    (h : trace.Reaches size view source) : trace.Reaches size before source := by
  obtain ⟨after, hafter, hfollows⟩ := h
  exact ⟨after, hleads.trans hafter, hfollows⟩

/-- With everything in slots, code may go to any line that wants it so. -/
theorem Stored.follows (h : trace.Stored source core console) (hline : source.line ≤ program.length)
    (hunbound : (trace.state source.line).storage.Unbound) :
    trace.Follows source ⟨trace.entry source.line, core, console⟩ where
  line_le := hline
  carries := h.carries
  position := .start rfl (.of_memory (trace.tidy hline) hunbound
    (trace.counts_grow hline (Nat.le_refl _)).2 h.memory)

/-! ## Lines -/

variable (trace) in
theorem total_le : trace.total ≤ 255 :=
  (trace.tidy (Nat.le_refl _)).length_le

/-- Slots of the variables known at a line are behind the code. -/
theorem Loaded.clearAt (loaded : trace.Loaded size) (h : line ≤ program.length) :
    (trace.state line).storage.Clear size := by
  intro id hid
  rw [(trace.tidy h).address id hid]
  exact loaded.clear id (Nat.lt_of_lt_of_le hid (trace.counts_grow h (Nat.le_refl _)).2)

theorem clear_of_same {before after : Storage} (same : before.SameVars after)
    (h : after.Clear size) : before.Clear size := by
  intro id hid
  rw [← same.length_eq] at hid
  rw [← same.address_eq]
  exact h id hid

/-- What a line comes to, and what is left of it at the next line. -/
structure Comes (trace : Trace program) (line : Nat) (after : BuildState)
    (items : List (Scope × Item)) : Prop where
  lt : line < program.length
  done : trace.done (line + 1) = trace.done line ++ items
  ranged : after.Ranged (line + 1)
  state : ∃ storage, storage = (Storage.endStatement.run after.storage).state ∧
    trace.state (line + 1) = { after with storage := storage }

variable {after : BuildState} {items : List (Scope × Item)} {bytes : List UInt8}

variable (trace) in
theorem comes {statement : Statement} (h : program[line]? = some (some statement)) :
    ∃ after items, trace.Comes line after items ∧
      Compiled (line + 1) (trace.state line) after items statement := by
  obtain ⟨after, items, htells, hdone, hstate⟩ := trace.tells h
  exact ⟨after, items, ⟨(List.getElem?_eq_some_iff.1 h).1, hdone, htells.ranged, _, rfl, hstate⟩,
    htells.compiled statement rfl⟩

theorem Comes.storage (h : trace.Comes line after items) :
    (trace.state (line + 1)).storage = (Storage.endStatement.run after.storage).state := by
  obtain ⟨storage, hstorage, hstate⟩ := h.state
  rw [hstate, hstorage]

theorem Comes.current (h : trace.Comes line after items) :
    (trace.state (line + 1)).current = after.current := by
  obtain ⟨storage, -, hstate⟩ := h.state
  rw [hstate]

theorem Comes.blocks (h : trace.Comes line after items) :
    (trace.state (line + 1)).blocks = after.blocks := by
  obtain ⟨storage, -, hstate⟩ := h.state
  rw [hstate]

theorem Comes.functions (h : trace.Comes line after items) :
    (trace.state (line + 1)).functions = after.functions := by
  obtain ⟨storage, -, hstate⟩ := h.state
  rw [hstate]

theorem Comes.labels (h : trace.Comes line after items) :
    (trace.state (line + 1)).labels = after.labels := by
  obtain ⟨storage, -, hstate⟩ := h.state
  rw [hstate]

theorem Comes.holds (h : trace.Comes line after items) {value : VarId → UInt8}
    (hholds : after.storage.Holds trace.total core value) :
    (trace.state (line + 1)).storage.Holds trace.total core value := by
  rw [h.storage]
  exact hholds.endStatement

/-- Where nothing is in a register, nothing is at the next line. -/
theorem Comes.unbound (h : trace.Comes line after items) (hunbound : after.storage.Unbound) :
    (trace.state (line + 1)).storage.Unbound := by
  intro id
  rw [h.storage, Storage.register_endStatement]
  exact hunbound id

theorem Comes.puts (h : trace.Comes line after items) {part : List Item}
    (hitems : items = part.map fun item => ((trace.state line).current, item)) :
    trace.Puts line part := by
  rw [Puts, h.done, hitems]

theorem Comes.clear (h : trace.Comes line after items) (loaded : trace.Loaded size) :
    after.storage.Clear size := by
  refine clear_of_same (Storage.same_endStatement h.ranged.tidy) ?_
  have hclear := loaded.clearAt (Nat.succ_le_of_lt h.lt)
  rw [h.storage] at hclear
  exact hclear

/-! ## Statements that compute -/

/-- At a line that is no `while`, the code is at its start. -/
theorem Follows.start (h : trace.Follows source view) {said : Option Statement}
    (hsaid : program[source.line]? = some said) (hloop : ∀ condition, said ≠ some (.loop condition)) :
    ∃ core console, view = ⟨trace.entry source.line, core, console⟩ ∧
      trace.Carries source core console ∧
      (trace.state source.line).storage.Holds trace.total core source.value := by
  rcases h.position with ⟨index, holds⟩ | ⟨loop, -, -⟩
  · exact ⟨view.core, view.console, by rw [← index], h.carries, holds⟩
  · have hother := loop.said
    rw [hsaid] at hother
    exact absurd (Option.some.inj hother) (hloop loop.condition)

/-- Code that changes registers and memory only carries the rest along. -/
theorem Carries.of_rest (h : trace.Carries source core console)
    (hrest : core' = { core with registers := core'.registers, memory := core'.memory })
    (hexit : next.exitCode = source.exitCode)
    (hpending : next.pending = source.pending) (houtput : next.output = source.output ++ bytes) :
    trace.Carries next core' (console.receiveAll bytes) where
  running := hexit.trans h.running
  stack := by
    rw [hpending, hrest]
    exact h.stack
  exitCode := by
    rw [hrest]
    exact h.exitCode
  console := by
    rw [houtput, Console.receiveAll_append, ← h.console]

/-- A line of straight code leads to the next line. -/
theorem reaches_straight (hcomes : trace.Comes source.line after items) {code : List Instruction}
    (hcurrent : after.current = (trace.state source.line).current)
    (hitems : items = straight (trace.state source.line).current code) {storage : Storage}
    (hclear : storage.Clear size) (haudible : Audible storage code)
    (hcarries : trace.Carries source core console)
    (hspeak : core.speak .singleBit code = (core', bytes))
    (hrest : core' = { core with registers := core'.registers, memory := core'.memory })
    (hholds : after.storage.Holds trace.total core' next.value)
    (hline : next.line = source.line + 1) (hexit : next.exitCode = source.exitCode)
    (hpending : next.pending = source.pending) (houtput : next.output = source.output ++ bytes) :
    trace.Reaches size ⟨trace.entry source.line, core, console⟩ next := by
  have hputs := hcomes.puts (hitems.trans (straight_eq_map _ code))
  have hleads : View.Leads trace.items size ⟨trace.entry source.line, core, console⟩ _ :=
    View.leads_straight hclear haudible (hputs.stands hcomes.lt)
  rw [hspeak] at hleads
  refine ⟨_, hleads, ?_, hcarries.of_rest hrest hexit hpending houtput, .start ?_ ?_⟩
  · rw [hline]
    exact hcomes.lt
  · rw [hline, hputs.entry_succ (hcomes.current.trans hcurrent), List.length_map]
  · rw [hline]
    exact hcomes.holds hholds

theorem reaches_blank (h : trace.Follows source view) (hsaid : program[source.line]? = some none) :
    trace.Reaches size view source.next := by
  obtain ⟨core, console, rfl, hcarries, hholds⟩ := h.start hsaid (by simp)
  obtain ⟨after, items, htells, hdone, hstate⟩ := trace.tells hsaid
  obtain ⟨rfl, rfl⟩ := htells.blank rfl
  have hcomes : trace.Comes source.line (trace.state source.line) [] :=
    ⟨(List.getElem?_eq_some_iff.1 hsaid).1, hdone, htells.ranged, _, rfl, hstate⟩
  have hputs : trace.Puts source.line [] := hcomes.puts rfl
  refine ⟨_, .refl _, hcomes.lt, ⟨hcarries.running, hcarries.stack, hcarries.exitCode,
    hcarries.console⟩, .start ?_ (hcomes.holds hholds)⟩
  exact (hputs.entry_succ hcomes.current).symm

theorem reaches_assigned (loaded : trace.Loaded size) (hcomes : trace.Comes source.line after items)
    (hcurrent : after.current = (trace.state source.line).current) {storage : Storage}
    (tidy : storage.Tidy) (same : storage.SameVars after.storage)
    (hholds : storage.Holds trace.total core source.value)
    (hcarries : trace.Carries source core console) {outline : Outline} {scope : Scope}
    (hscope : scope = (trace.state source.line).current)
    (names : ∀ name, outline.lookup? name = storage.lookup? name scope) {id : VarId}
    (hid : id < storage.vars.length) {update : Update} {byte : UInt8}
    (hassigned : Build.Assigned (.variable id) update scope storage after.storage items)
    (hupdated : outline.updated? source id update = some byte) :
    trace.Reaches size ⟨trace.entry source.line, core, console⟩ (source.set id byte).next := by
  subst hscope
  obtain ⟨computation, hresolves, code, hitems, -, hcalm, hupdates⟩ := hassigned
  have hvalue := hholds.updated? names hid hresolves hupdated
  have hcalm := hcalm id rfl (Computation.portless_of_value? hvalue)
  obtain ⟨apart, rfl⟩ := Computation.value_of_value? hvalue
  have hassigns := (hupdates .singleBit core hholds.coherent (fun _ heq => by cases heq) apart).assigns
  refine reaches_straight hcomes hcurrent hitems (clear_of_same same (hcomes.clear loaded))
    (fun i hi => .inl (hcalm i hi)) hcarries (Storage.speak_calm hcalm .singleBit core) hassigns.rest
    ?_ rfl rfl rfl (List.append_nil _).symm
  exact hholds.assigns tidy trace.total_le same hid hassigns

theorem reaches_assign (loaded : trace.Loaded size) (h : trace.Follows source view) {name : String}
    {update : Update} (hsaid : program[source.line]? = some (some (.assign name update)))
    (hassign : (program.outline source.line).assign source name update = some next) :
    trace.Reaches size view next := by
  obtain ⟨core, console, rfl, hcarries, hholds⟩ := h.start hsaid (by simp)
  obtain ⟨after, items, hcomes, hcontinues, hassigned⟩ := trace.comes hsaid
  have names := (trace.tracks h.line_le).lookup?
  simp only [Outline.assign, Option.bind_eq_bind, Option.bind_eq_some_iff] at hassign
  obtain ⟨id, hlookup, byte, hupdated, hnext⟩ := hassign
  cases hnext
  rw [names] at hlookup
  have hreferent : Referent.ofOperand (trace.state source.line).storage
      (trace.state source.line).current (.word name) = .ok (.variable id) := by
    simp only [Referent.ofOperand, Referent.ofWord, hlookup]
  exact reaches_assigned loaded hcomes hcontinues.current (trace.tidy h.line_le) hcontinues.same
    hholds hcarries rfl names (Referent.lt_of_lookup? hlookup) (hassigned _ hreferent) hupdated

theorem reaches_declare (loaded : trace.Loaded size) (h : trace.Follows source view) {name : String}
    {value : Option Operand} (hsaid : program[source.line]? = some (some (.declare name value)))
    (hperform : program.perform source (.declare name value) = some next) :
    trace.Reaches size view next := by
  obtain ⟨core, console, rfl, hcarries, hholds⟩ := h.start hsaid (by simp)
  obtain ⟨after, items, hcomes, storage, id, hdeclares, hcontinues, hvalue⟩ := trace.comes hsaid
  have htotal : after.storage.vars.length ≤ trace.total := by
    have hle := (trace.counts_grow (Nat.succ_le_of_lt hcomes.lt) (Nat.le_refl _)).2
    rwa [hcomes.storage, (Storage.same_endStatement hcomes.ranged.tidy).length_eq] at hle
  have hsame : storage.vars.length = after.storage.vars.length := hcontinues.same.length_eq.symm
  have tidy : storage.Tidy :=
    hdeclares.tidy (trace.tidy h.line_le) (by rw [hsame]; exact hcomes.ranged.tidy.length_le)
  -- The slot is there from the start, and now it has a name.
  have hdeclared : storage.Holds trace.total core source.value :=
    hholds.declares hdeclares tidy (by rw [hsame]; exact htotal)
  have names := ((trace.tracks h.line_le).declares hdeclares).lookup?
  cases value with
  | none =>
    cases hperform
    obtain ⟨rfl, rfl⟩ := hvalue
    have hitems : [] = straight (trace.state source.line).current [] := rfl
    exact reaches_straight hcomes hcontinues.current hitems (hcomes.clear loaded)
      (fun i hi => (by cases hi)) hcarries rfl rfl hdeclared rfl rfl rfl (List.append_nil _).symm
  | some value =>
    simp only [Program.perform, Outline.assign, Option.bind_eq_bind, Option.bind_eq_some_iff]
      at hperform
    obtain ⟨other, hlookup, byte, hupdated, hnext⟩ := hperform
    cases hnext
    rw [names, hdeclares.lookup?] at hlookup
    cases hlookup
    exact reaches_assigned loaded hcomes hcontinues.current tidy hcontinues.same hdeclared hcarries
      rfl names (Referent.lt_of_lookup? hdeclares.lookup?) hvalue hupdated

theorem reaches_write (loaded : trace.Loaded size) (h : trace.Follows source view) {name : String}
    {operand : Operand} (hsaid : program[source.line]? = some (some (.call name [operand])))
    (hname : Builtin.ofName? name = some .write) {bytes : List UInt8}
    (hwritten : (program.outline source.line).written? source operand = some bytes) :
    trace.Reaches size view (source.write bytes).next := by
  obtain ⟨core, console, rfl, hcarries, hholds⟩ := h.start hsaid (by simp)
  obtain ⟨after, items, hcomes, hcontinues, hcalled⟩ := trace.comes hsaid
  have names := (trace.tracks h.line_le).lookup?
  simp only [Build.Called, hname] at hcalled
  obtain ⟨code, used, hitems, hwrites⟩ := hcalled
  obtain ⟨haudible, hspoken, hspares⟩ :=
    hwrites .singleBit core hholds.coherent bytes (hholds.written? names hwritten)
  have hspeak : core.speak .singleBit code = ((core.speak .singleBit code).1, bytes) :=
    Prod.ext rfl hspoken
  exact reaches_straight hcomes hcontinues.current hitems (loaded.clearAt h.line_le) haudible hcarries
    hspeak hspares.rest
    (hholds.spares (trace.tidy h.line_le) trace.total_le hcontinues.same hspares) rfl rfl rfl rfl

theorem reaches_rotate (loaded : trace.Loaded size) (h : trace.Follows source view) {name : String}
    {target : String} {amount : Operand}
    (hsaid : program[source.line]? = some (some (.call name [.word target, amount])))
    (hname : Builtin.ofName? name = some .rotate) {id : VarId}
    (hlookup : (program.outline source.line).lookup? target = some id) :
    trace.Reaches size view (source.set id (Source.turned (source.value id))).next := by
  obtain ⟨core, console, rfl, hcarries, hholds⟩ := h.start hsaid (by simp)
  obtain ⟨after, items, hcomes, hcontinues, hcalled⟩ := trace.comes hsaid
  rw [(trace.tracks h.line_le).lookup?] at hlookup
  simp only [Build.Called, hname] at hcalled
  obtain ⟨other, code, amount, hreferent, hitems, hcalm, hassigns⟩ := hcalled
  obtain rfl : other = id := by
    simp only [Referent.ofOperand, Referent.ofWord, hlookup] at hreferent
    cases hreferent
    rfl
  have hid := Referent.lt_of_lookup? hlookup
  have hassigns := hassigns .singleBit core hholds.coherent
  rw [hholds.known other hid] at hassigns
  refine reaches_straight hcomes hcontinues.current hitems (loaded.clearAt h.line_le)
    (fun i hi => .inl (hcalm i hi)) hcarries (Storage.speak_calm hcalm .singleBit core) hassigns.rest
    ?_ rfl rfl rfl (List.append_nil _).symm
  rw [turned_eq]
  exact hholds.assigns (trace.tidy h.line_le) trace.total_le hcontinues.same hid hassigns

end Trace

end ByteBasic
