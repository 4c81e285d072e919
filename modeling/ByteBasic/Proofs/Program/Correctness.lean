import ByteBasic.Proofs.Program.Simulation

/-!
# Images run as programs say

What the compiler accepts is laid out, patched and has room below the slots of its variables. Put into
the memory of a processor at rest, it is at the first line of the program with zero in every variable,
so that the processor follows the program to its end (`compiled_runs_as_written`).
-/

namespace ByteBasic

open Source (Program State)

variable {source : String} {image : Image} {lines : List String} {session : Session}

/-! ## Accepted programs -/

namespace Session

/-- Code that passes the check fits into memory below every slot. -/
theorem checkSize_eq_ok {size : Nat} (h : session.checkSize lines size = .ok ()) :
    size ≤ 256 ∧ session.state.storage.Clear size := by
  unfold checkSize at h
  split at h
  · cases h
  next hsmall =>
    refine ⟨Nat.le_of_not_lt hsmall, fun id hid => ?_⟩
    have hmem : (session.state.storage.get id).address ∈
        session.state.storage.vars.map Variable.address := by
      refine List.mem_map.2 ⟨_, List.getElem_mem hid, ?_⟩
      rw [Storage.get, List.getElem?_eq_getElem hid]
      rfl
    split at h
    next hnone =>
      rw [Storage.lowestAddress?, List.min?_eq_none_iff] at hnone
      rw [hnone] at hmem
      cases hmem
    next lowest hlowest =>
      split at h
      · cases h
      next hbelow =>
        have hle : lowest ≤ (session.state.storage.get id).address :=
          (List.le_min?_iff hlowest).1 (UInt8.le_refl lowest) _ hmem
        exact Nat.le_trans (Nat.le_of_not_lt hbelow) hle

theorem InRange.plain {count : Nat} (h : session.InRange count) {i : Instruction}
    (hitem : Item.instruction i ∈ session.items) : i.Plain := by
  obtain ⟨emission, hmem, hitem⟩ := mem_items hitem
  obtain ⟨⟨_, -, -, hrange⟩, -⟩ := h.emissions emission hmem
  exact hrange.plain i hitem

theorem InRange.label_lt {count : Nat} (h : session.InRange count) {item : Item}
    (hitem : item ∈ session.items) {label : LabelId} (hlabel : label ∈ item.labels) :
    label < session.state.labels.size := by
  obtain ⟨emission, hmem, rfl⟩ := mem_items hitem
  obtain ⟨⟨_, -, -, hrange⟩, hsize⟩ := h.emissions emission hmem
  exact Nat.lt_of_lt_of_le (hrange.labels label hlabel) hsize

end Session

/-! ## Programs at rest -/

theorem read_writeAll_of_ge {n : Nat} (bank : Bank n) {start address : Nat} (bytes : List UInt8)
    (h : start + bytes.length ≤ address) :
    (bank.writeAll start bytes).read address = bank.read address := by
  induction bytes generalizing bank start with
  | nil => rfl
  | cons first bytes ih =>
    rw [List.length_cons] at h
    rw [Bank.writeAll, ih _ (by omega), Bank.read_write_of_ne _ (by omega)]

/-- A core at rest with bytes in memory. -/
def Core.loaded (bytes : List UInt8) : Core :=
  { Core.initial with memory := Core.initial.memory.writeAll 0 bytes }

namespace Trace

variable {program : Program} {trace : Trace program}

theorem items_eq (trace : Trace program) :
    (trace.session program.length).items = trace.items :=
  Session.items_eq _

/-- Before the first line, every variable is zero and nothing is written. -/
theorem follows_initial {size : Nat} (loaded : trace.Loaded size) {bytes : List UInt8}
    (hsize : bytes.length = size) :
    trace.Follows .initial ⟨0, .loaded bytes, .empty⟩ := by
  have hentry : trace.entry 0 = 0 := by
    rw [entry, trace.done_zero, trace.state_zero]
    rfl
  have hunbound : (trace.state 0).storage.Unbound := by
    rw [trace.state_zero]
    exact fun id => rfl
  have hstored : trace.Stored .initial (.loaded bytes) .empty := by
    refine ⟨⟨rfl, trivial, rfl, rfl⟩, fun id hid => ?_⟩
    have hclear := loaded.clear id hid
    rw [Core.mem, Core.loaded, read_writeAll_of_ge _ _ (by rw [Nat.zero_add, hsize]; exact hclear)]
    exact Bank.read_zero _
  have hfollows := hstored.follows (Nat.zero_le _) hunbound
  rw [show State.initial.line = 0 from rfl, hentry] at hfollows
  exact hfollows

/-- An accepted program is linked, and its slots are behind the code. -/
theorem loaded_of_finish {trace : Trace program} {lines : List String} {image : Image}
    (h : (trace.session program.length).finish lines = .ok image) :
    trace.Loaded image.bytes.length ∧ image.bytes.length ≤ 256 ∧
      ∃ place, Machine.Program trace.items place image.bytes := by
  obtain ⟨hassemble, hcheck⟩ := Session.finish_eq_ok h
  obtain ⟨layout, hlower, hpatch⟩ := Session.assemble_ok hassemble
  obtain ⟨hsmall, hclear⟩ := Session.checkSize_eq_ok hcheck
  have hinRange := trace.inRange (Nat.le_refl program.length)
  have hassembled := assembled_of_layout hlower hpatch
  have hknown : ∀ label line, Item.label label line ∈ (trace.session program.length).items →
      label < (trace.session program.length).state.labels.size :=
    fun label _ hitem => hinRange.label_lt hitem (List.mem_singleton_self label)
  have hprogram := Machine.program_of_assembled hassembled hsmall (fun _ => hinRange.plain) hknown
  have hlinked := linked_of_assembled hassembled hknown
  rw [trace.items_eq] at hprogram hlinked
  refine ⟨⟨hlinked, fun id hid => ?_⟩, hsmall, _, hprogram⟩
  have haddress := hclear id hid
  rw [hinRange.state.tidy.address id hid] at haddress
  exact haddress

end Trace

/-- **Compiled programs run as they are written.** A source that is accepted is a program, and
whenever a run of that program, line by line, comes to its end, so does a processor at rest with a
console at port zero that has the image in its memory, if its budget is large enough: it halts with
the exit code of the program, and the console shows what the program wrote. -/
theorem compiled_runs_as_written {source : String} {image : Image}
    (h : compile source = .ok image) :
    ∃ program, Source.program (Text.lines source) = .ok program ∧
      ∀ count last code, program.runFor count .initial = some last → last.exitCode = some code →
        ∃ enough, ∀ budget ≥ enough, ∃ loaded stopped,
          ((Processor.new { maxCycles := budget }).attach consolePort Console.empty).loadImage image =
            .ok loaded ∧
          loaded.run = (.halted, stopped) ∧ stopped.core.exitCode = code ∧
          stopped.slots = [⟨consolePort,
            ⟨String.ofList ((last.output.filter (· ≠ 0)).map Console.character)⟩⟩] := by
  obtain ⟨session, hlines, hfinish⟩ := compile_eq_ok h
  obtain ⟨program, hprogram, trace, rfl⟩ := exists_trace hlines
  obtain ⟨hloaded, hsmall, place, hcode⟩ := trace.loaded_of_finish hfinish
  refine ⟨program, hprogram, fun count last code hrun hexit => ?_⟩
  obtain ⟨cost, hends⟩ := Trace.ends_runFor hloaded (Trace.follows_initial hloaded rfl) hrun hexit
  refine ⟨cost, fun budget hbudget => ?_⟩
  let loaded : Processor Console :=
    { (Processor.new { maxCycles := budget }).attach consolePort Console.empty with
      core := .loaded image.bytes }
  have hload : ((Processor.new { maxCycles := budget }).attach consolePort
      Console.empty).loadImage image = .ok loaded := by
    unfold Processor.loadImage Processor.loadBytes
    rw [if_neg (show ¬ image.bytes.length > memorySize from Nat.not_lt_of_le hsmall)]
    rfl
  have hof : View.Of ⟨0, .loaded image.bytes, .empty⟩ ⟨0, loaded⟩ :=
    ⟨rfl, rfl, rfl, rfl, Core.initial.ports, rfl⟩
  obtain ⟨_, after, hruns, hstatus, hcode', hslots, hcycles⟩ := hends _ hof
  have hholds : Holds loaded.core.memory image.bytes := holds_writeAll Core.initial.memory hsmall
  have hwithin : after.processor.cycles ≤ loaded.config.maxCycles := by
    rw [hcycles]
    exact Nat.le_trans (Nat.le_of_eq (Nat.zero_add cost)) hbudget
  refine ⟨loaded, _, hload, hcode.run_of_runFor hholds rfl hruns hwithin hstatus, hcode', ?_⟩
  rw [← Console.receiveAll_empty]
  exact hslots

/-- A loop that calls a function, which writes a star and counts. -/
theorem compiled_runs_as_written_stars :
    let source := "var n\nfunction star()\nwrite(\"*\")\nn += 1\nend\nwhile n < 3\nstar()\nend\nexit 7"
    ∃ image enough, compile source = .ok image ∧ ∀ budget ≥ enough, ∃ loaded stopped,
      ((Processor.new { maxCycles := budget }).attach consolePort Console.empty).loadImage image =
        .ok loaded ∧
      loaded.run = (.halted, stopped) ∧ stopped.core.exitCode = 7 ∧
      stopped.slots = [⟨consolePort, ⟨"***"⟩⟩] := by
  intro source
  have hcompile : (compile source).toOption = some ⟨[16, 255, 33, 3, 241, 16, 177, 16, 32, 14, 66, 1,
      176, 22, 176, 0, 32, 7, 66, 2, 192, 0, 33, 42, 209, 0, 33, 1, 18, 255, 82, 33, 50, 255, 67,
      16]⟩ := by decide +kernel
  have hrun : ((Source.program (Text.lines source)).toOption.bind fun program =>
      (program.runFor 22 .initial).map fun last => (last.exitCode, last.output)) =
        some (some 7, [42, 42, 42]) := by decide +kernel
  cases hresult : compile source with
  | error report =>
    rw [hresult] at hcompile
    cases hcompile
  | ok image =>
    obtain ⟨program, hprogram, hruns⟩ := compiled_runs_as_written hresult
    rw [hprogram] at hrun
    obtain ⟨last, hlast, hends⟩ := Option.map_eq_some_iff.1 hrun
    obtain ⟨hexit, houtput⟩ := Prod.mk.inj hends
    obtain ⟨enough, henough⟩ := hruns 22 last 7 hlast hexit
    rw [houtput] at henough
    exact ⟨image, enough, rfl, henough⟩

end ByteBasic
