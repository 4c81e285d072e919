import ByteBasic.Proofs.Program.Streams
import ByteBasic.Proofs.Program.Tracking

/-!
# Where lines start

Every line has a place among the items of the finished program: the one that its stream has come to
(`Trace.entry`). What a line puts out stands there. The lines of a function are in its own stream, so
the line behind the end of a function is, for the global code, where its first line was
(`Trace.entry_behind`).
-/

namespace ByteBasic

open Source (Program Outline Opener)
open Build (Continues streamBehind straight)

/-! ## Lines of a block -/

namespace Source.Program

variable {program : Program} {statement : Statement} {start line : Nat}

/-- A line of the innermost block which was opened at a given line. -/
def OfBlock (program : Program) (statement : Statement) (start line : Nat) : Prop :=
  program[line]? = some (some statement) ∧
    (program.outline line).blocks.head?.map Prod.snd = some start

theorem ofBlock_iff :
    ((program[line]?).join == some statement &&
      ((program.outline line).blocks.head?.map Prod.snd) == some start) = true ↔
        program.OfBlock statement start line := by
  rw [Bool.and_eq_true, beq_iff_eq, beq_iff_eq, OfBlock, Option.join_eq_some_iff]

theorem ofBlock?_eq_some (h : program.ofBlock? statement start = some line) :
    program.OfBlock statement start line ∧ ∀ k < line, ¬ program.OfBlock statement start k := by
  obtain ⟨hline, -, hfirst⟩ := List.find?_range_eq_some.1 h
  refine ⟨ofBlock_iff.1 hline, fun k hk hblock => ?_⟩
  have hno := hfirst k hk
  rw [ofBlock_iff.2 hblock] at hno
  cases hno

theorem ofBlock?_eq_none (h : program.ofBlock? statement start = none) :
    ¬ program.OfBlock statement start line := by
  intro hblock
  have hlt := (List.getElem?_eq_some_iff.1 hblock.1).1
  have hno := List.find?_eq_none.1 h line (List.mem_range.2 hlt)
  exact hno (ofBlock_iff.2 hblock)

theorem behind?_eq_some {target : Nat} (h : program.behind? start = some target) :
    ∃ line, target = line + 1 ∧ program.OfBlock .close start line ∧
      ∀ k < line, ¬ program.OfBlock .close start k := by
  obtain ⟨line, hline, rfl⟩ := Option.map_eq_some_iff.1 h
  obtain ⟨hblock, hfirst⟩ := ofBlock?_eq_some hline
  exact ⟨line, rfl, hblock, hfirst⟩

end Source.Program

namespace Trace

variable {program : Program} (trace : Trace program) {line later start : Nat}

theorem head_of_ofBlock {statement : Statement} (h : program.OfBlock statement start line) :
    ∃ block outer first, (trace.state line).blocks = block :: outer ∧
      trace.Opened line block start first := by
  obtain ⟨hsaid, hhead⟩ := h
  have hle := Nat.le_of_lt (List.getElem?_eq_some_iff.1 hsaid).1
  rw [(trace.tracks hle).blocks] at hhead
  cases hblocks : (trace.state line).blocks with
  | nil =>
    rw [hblocks] at hhead
    cases hhead
  | cons block outer =>
    rw [hblocks] at hhead
    have hstart : block.line - 1 = start := by simpa using hhead
    obtain ⟨other, first, hopened⟩ := trace.opened hle (show block ∈ _ by simp [hblocks])
    obtain rfl : other = start := by
      have hnumber := hopened.number
      omega
    exact ⟨block, outer, first, rfl, hopened⟩

/-! ## Places -/

/-- Everything that the lines put out. -/
def out : List (Scope × Item) :=
  trace.done program.length

/-- The number of functions. -/
def functions : Nat :=
  (trace.state program.length).functions.length

/-- The number of variables. -/
def total : Nat :=
  (trace.state program.length).storage.vars.length

/-- The items of the program. -/
def items : List Item :=
  laidOut trace.functions trace.out

/-- The number of the item that a line starts with. -/
def entry (line : Nat) : Nat :=
  place trace.out (trace.done line) (trace.state line).current

theorem exists_current (h : line ≤ program.length) :
    (trace.state line).current.Exists trace.functions := fun id hid =>
  Nat.lt_of_lt_of_le ((trace.ranged h).current id hid)
    (trace.counts_grow h (Nat.le_refl _)).1

theorem stands (h : line < program.length) {scope : Scope} (before rest : List (Scope × Item))
    {part : List Item} (hscope : scope.Exists trace.functions)
    (hdone : trace.done (line + 1) =
      trace.done line ++ (before ++ (part.map fun item => (scope, item)) ++ rest)) :
    Stands trace.items (place trace.out (trace.done line ++ before) scope) part := by
  obtain ⟨more, hmore⟩ := trace.done_prefix (Nat.succ_le_of_lt h) (Nat.le_refl _)
  have hout : trace.out = trace.done line ++ before ++ (part.map fun item => (scope, item)) ++
      (rest ++ more) := by
    rw [out, ← hmore, hdone]
    simp only [List.append_assoc]
  exact stands_place hscope hout

/-- A line that puts out items for the open stream only. -/
def Puts (line : Nat) (part : List Item) : Prop :=
  trace.done (line + 1) =
    trace.done line ++ part.map fun item => ((trace.state line).current, item)

variable {trace} {part : List Item}

theorem Puts.stands (h : trace.Puts line part) (hline : line < program.length) :
    Stands trace.items (trace.entry line) part := by
  have hdone : trace.done (line + 1) = trace.done line ++
      ([] ++ (part.map fun item => ((trace.state line).current, item)) ++ []) := by
    rw [List.nil_append, List.append_nil]
    exact h
  have hstands := trace.stands hline [] [] (trace.exists_current (Nat.le_of_lt hline)) hdone
  rwa [List.append_nil] at hstands

/-- The next line starts behind it, if it is in the same stream. -/
theorem Puts.entry_succ (h : trace.Puts line part)
    (hcurrent : (trace.state (line + 1)).current = (trace.state line).current) :
    trace.entry (line + 1) = trace.entry line + part.length := by
  rw [entry, entry, h, hcurrent, place_same]

/-! ## Bodies of functions -/

variable (trace)

/-- The body of a function is open up to its end. -/
theorem open_function {name : String} (hsaid : program[start]? = some (some (.function name)))
    (hlt : start < line) (hle : line ≤ program.length)
    (hopen : ∀ k < line, ¬ program.OfBlock .close start k) :
    ∃ block ∈ (trace.state line).blocks, block.line = start + 1 ∧
      block.kind = .function (trace.state start).functions.length := by
  induction hlt with
  | refl =>
    obtain ⟨begun, hbegins, hc⟩ := trace.begins hsaid
    rw [Nat.succ_eq_add_one, hc.blocks]
    cases hbegins with
    | stays plain => cases plain .empty 0
    | defines global kind number => exact ⟨_, List.mem_cons_self .., number, kind⟩
  | @step k _ ih =>
    obtain ⟨block, hmem, hline, hkind⟩ :=
      ih (Nat.le_of_lt hle) fun j hj => hopen j (Nat.lt_succ_of_lt hj)
    obtain ⟨said, htells⟩ : ∃ said, program[k]? = some said := ⟨_, List.getElem?_eq_getElem hle⟩
    obtain ⟨begun, hbegins, hc⟩ := trace.begins htells
    have htracks := trace.tracks (Nat.le_of_lt hle)
    refine ⟨block, ?_, hline, hkind⟩
    rw [Nat.succ_eq_add_one, hc.blocks]
    cases hbegins with
    | stays _ => exact hmem
    | declares _ => exact hmem
    | branches _ _ => exact List.mem_cons_of_mem _ hmem
    | loops _ _ => exact List.mem_cons_of_mem _ hmem
    | defines _ _ _ => exact List.mem_cons_of_mem _ hmem
    | otherwise opened kind =>
      rw [opened] at hmem
      rcases List.mem_cons.1 hmem with rfl | hmem
      · rw [hkind] at kind
        cases kind
      · exact List.mem_cons_of_mem _ hmem
    | closes opened =>
      rw [opened] at hmem
      rcases List.mem_cons.1 hmem with rfl | hmem
      · -- Only the `end` of the body takes it away, and that line is not reached yet.
        refine absurd ⟨htells, ?_⟩ (hopen k (Nat.lt_succ_self k))
        rw [htracks.blocks, opened]
        simp [hline]
      · exact hmem

/-- Up to there code goes to its stream. -/
theorem current_of_function {name : String}
    (hsaid : program[start]? = some (some (.function name))) (hlt : start < line)
    (hle : line ≤ program.length) (hopen : ∀ k < line, ¬ program.OfBlock .close start k) :
    (trace.state line).current = .function (trace.state start).functions.length := by
  obtain ⟨block, hmem, -, hkind⟩ := trace.open_function hsaid hlt hle hopen
  have hfunction : block.function? = some (trace.state start).functions.length := by
    simp [Block.function?, hkind]
  have hin := List.mem_filterMap.2 ⟨block, hmem, hfunction⟩
  rw [trace.nested hle] at hin
  cases hcurrent : (trace.state line).current with
  | global =>
    rw [hcurrent] at hin
    cases hin
  | function id =>
    rw [hcurrent] at hin
    rw [List.mem_singleton.1 hin]

/-- A line of a function puts out nothing for the global stream. -/
theorem global_done {id : FunctionId} (hline : line < program.length)
    (hcurrent : (trace.state line).current = .function id) :
    ofStream .global (trace.done (line + 1)) = ofStream .global (trace.done line) := by
  obtain ⟨said, hsaid⟩ : ∃ said, program[line]? = some said := ⟨_, List.getElem?_eq_getElem hline⟩
  obtain ⟨after, items, htells, hdone, -⟩ := trace.tells hsaid
  rw [hdone, ofStream_append]
  -- It is enough that all items go to the stream of the function.
  suffices hnone : ∀ entry ∈ items, entry.1 = (trace.state line).current by
    have hempty : ofStream .global items = [] := by
      unfold ofStream
      rw [List.map_eq_nil_iff, List.filter_eq_nil_iff]
      intro entry hentry
      rw [hnone entry hentry, hcurrent]
      simp
    rw [hempty, List.append_nil]
  cases said with
  | none =>
    rw [(htells.blank rfl).2]
    exact fun _ h => (by cases h)
  | some statement =>
    -- An `end` still puts its items there; only the line behind it goes elsewhere.
    by_cases hclose : statement = .close
    · subst hclose
      obtain ⟨block, outer, code, -, -, -, rfl⟩ := htells.compiled _ rfl
      intro entry hentry
      rcases List.mem_append.1 hentry with h | h
      · obtain ⟨_, -, rfl⟩ := List.mem_map.1 h
        rfl
      · obtain ⟨_, -, rfl⟩ := List.mem_map.1 h
        rfl
    · refine htells.scope statement rfl (fun name hname => ?_) hclose
      subst hname
      obtain ⟨_, _, hglobal, -⟩ := htells.compiled _ rfl
      rw [hcurrent] at hglobal
      cases hglobal

/-- For the global code, the line behind a function is where the function was. -/
theorem entry_behind {name : String} (hsaid : program[start]? = some (some (.function name)))
    (hclose : program.OfBlock .close start line)
    (hfirst : ∀ k < line, ¬ program.OfBlock .close start k) :
    (trace.state (line + 1)).current = .global ∧
      trace.entry (line + 1) = place trace.out (trace.done (start + 1)) .global := by
  have hlt := (List.getElem?_eq_some_iff.1 hclose.1).1
  obtain ⟨block, outer, first, hblocks, hopened⟩ := trace.head_of_ofBlock hclose
  -- The block that the line closes is the body that the function line opened.
  have hfunction : block.kind = .function (trace.state start).functions.length := by
    obtain ⟨begun, hbegins, hc⟩ := trace.begins hsaid
    have hhead := hopened.head
    rw [hc.blocks] at hhead
    cases hbegins with
    | stays plain => cases plain .empty 0
    | defines global kind number =>
      cases hhead
      rcases hopened.became with rfl | ⟨label, hbranch, -⟩
      · exact kind
      · rw [kind] at hbranch
        cases hbranch
  have hcurrent : (trace.state (line + 1)).current = .global := by
    obtain ⟨begun, hbegins, hc⟩ := trace.begins hclose.1
    rw [hc.current]
    cases hbegins with
    | stays plain => cases plain ⟨[], [], .global, [(.branch, 0)]⟩ 0
    | closes opened =>
      rw [hblocks] at opened
      cases opened
      simp [streamBehind, Build.isFunctionBlock, hfunction]
  refine ⟨hcurrent, ?_⟩
  -- In between, code goes to the stream of the function only.
  have hglobal : ∀ k, start < k → k ≤ line + 1 →
      ofStream .global (trace.done k) = ofStream .global (trace.done (start + 1)) := by
    intro k hk hle
    induction hk with
    | refl => rfl
    | @step k hk ih =>
      have hk' : k ≤ line := Nat.le_of_succ_le_succ hle
      rw [Nat.succ_eq_add_one, trace.global_done (Nat.lt_of_le_of_lt hk' hlt)
        (trace.current_of_function hsaid hk (Nat.le_of_lt (Nat.lt_of_le_of_lt hk' hlt))
          fun j hj => hfirst j (Nat.lt_of_lt_of_le hj hk'))]
      exact ih (Nat.le_succ_of_le hk')
  rw [entry, hcurrent, place, place,
    hglobal (line + 1) (Nat.lt_succ_of_lt hopened.before) (Nat.le_refl _)]

end Trace

end ByteBasic
