import ByteBasic.Compiler.Session
import ByteBasic.Proofs.Code.Patching
import ByteBasic.Proofs.Compiler.Statements

/-!
# Sessions

A session keeps everything in range from one line to the next (`Session.InRange`), so the faults that
laying out can find are the source's as well, and each is blamed on a line that exists.
-/

namespace ByteBasic

/-! ## Blame -/

/-- A report of a fault of the source, with the line that it is blamed on. -/
structure Blamed (lines : List String) (report : Report CompileError) : Prop where
  refused : report.cause.Refused
  line : ∃ index, ∃ h : index < lines.length, report.line = some ⟨index + 1, lines[index]⟩

/-- Numbers of lines that exist. -/
def IsLine (lines : List String) (number : Nat) : Prop :=
  1 ≤ number ∧ number ≤ lines.length

theorem sourceLine_of_isLine {lines : List String} {number : Nat} (h : IsLine lines number) :
    ∃ index, ∃ h : index < lines.length, sourceLine lines number = ⟨index + 1, lines[index]⟩ := by
  obtain ⟨hfrom, hto⟩ := h
  have hlt : number - 1 < lines.length := by omega
  refine ⟨number - 1, hlt, ?_⟩
  have hzero : number ≠ 0 := by omega
  have hnumber : number - 1 + 1 = number := by omega
  simp [sourceLine, hzero, hlt, hnumber]

theorem CompileError.Refused.not_internal {error : CompileError} (h : error.Refused) :
    Cause.kind error ≠ .internal := by
  intro hkind
  have hkind : error.kind = .internal := hkind
  rcases h with h | h | h | h <;> rw [hkind] at h <;> cases h

theorem blamed_blame {lines : List String} {number : Nat} {error : CompileError}
    (h : error.Refused) (hline : IsLine lines number) :
    Blamed lines (Session.blame lines number error) := by
  obtain ⟨index, hlt, hsource⟩ := sourceLine_of_isLine hline
  unfold Session.blame
  rw [Report.orLine_ofCause h.not_internal, hsource]
  exact ⟨h, index, hlt, rfl⟩

/-- A fault of laying out is blamed on one of the lines that the code comes from. -/
theorem blamed_layout {lines : List String} {numbers : List Nat} {report : Report LayoutError}
    (h : Layout.Blames lines numbers report) (hlines : ∀ n ∈ numbers, IsLine lines n) :
    Blamed lines (report.map .layout) := by
  obtain ⟨hkind, n, hn, hline⟩ := h
  obtain ⟨index, hlt, hsource⟩ := sourceLine_of_isLine (hlines n hn)
  refine ⟨?_, index, hlt, ?_⟩
  · rcases hkind with hkind | hkind
    · exact .inr (.inr (.inr hkind))
    · exact .inr (.inr (.inl hkind))
  · rw [← hsource]
    exact hline

namespace Session

variable {session : Session} {count : Nat} {lines : List String}

/-! ## From line to line -/

/-- What holds of a session after a number of lines, between two statements. -/
structure InRange (count : Nat) (session : Session) : Prop where
  state : session.state.Ranged count
  unpinned : session.state.storage.Unpinned
  emissions : ∀ emission ∈ session.emissions,
    (∃ number, 1 ≤ number ∧ number ≤ count ∧ emission.InRange number) ∧
      emission.state.labels.size ≤ session.state.labels.size

theorem inRange_new : new.InRange 0 where
  state := {
    tidy := Storage.tidy_empty
    forward := fun id hid => (by cases hid)
    current := fun id hid => (by cases hid)
    mains := fun f hf => (by cases hf)
    blocks := fun b hb => (by cases hb)
    declared := fun h => absurd rfl h }
  unpinned r := by
    rintro (h | ⟨id, h, -⟩)
    · simp [new, BuildState.initial, Storage.empty, Storage.owner] at h
    · simp [new, BuildState.initial, Storage.empty, Storage.owner] at h
  emissions e he := by cases he

theorem mem_emissions_append {events later : List BuildEvent} {emission : Emission} :
    emission ∈ (events ++ later).filterMap BuildEvent.emission? ↔
      emission ∈ events.filterMap BuildEvent.emission? ∨ .code emission ∈ later := by
  rw [List.filterMap_append, List.mem_append]
  refine or_congr Iff.rfl ⟨fun h => ?_, fun h => List.mem_filterMap.2 ⟨_, h, rfl⟩⟩
  obtain ⟨event, hevent, heq⟩ := List.mem_filterMap.1 h
  cases event with
  | note n => cases heq
  | code e =>
    cases heq
    exact hevent

/-- What a line puts out is in range, whether it is refused or not. -/
theorem InRange.line_emissions (h : session.InRange count) (text : String) :
    ∀ emission ∈ (session.line text (count + 1)).2.emissions,
      (∃ number, 1 ≤ number ∧ number ≤ count + 1 ∧ emission.InRange number) ∧
        emission.state.labels.size ≤ (session.line text (count + 1)).2.state.labels.size := by
  obtain ⟨hproper, -⟩ := Build.yields_line (h.state.mono (Nat.le_succ count)) h.unpinned
    (Nat.succ_pos count) text
  intro emission hmem
  rcases mem_emissions_append.1 hmem with hmem | hmem
  · obtain ⟨⟨number, hfrom, hto, hrange⟩, hsize⟩ := h.emissions emission hmem
    exact ⟨⟨number, hfrom, Nat.le_succ_of_le hto, hrange⟩, Nat.le_trans hsize hproper.grows⟩
  · obtain ⟨hrange, hsize⟩ := hproper.emissions emission hmem
    exact ⟨⟨count + 1, Nat.succ_pos count, Nat.le_refl _, hrange⟩, hsize⟩

theorem endStatement_eq (session : Session) :
    ∃ storage, storage = (Storage.endStatement.run session.state.storage).state ∧
      session.endStatement = { session with state := { session.state with storage := storage } } :=
  ⟨_, rfl, rfl⟩

/-- Between two statements nothing is pinned. -/
theorem ranged_endStatement (h : session.state.Ranged count) :
    session.endStatement.state.Ranged count ∧ session.endStatement.state.storage.Unpinned := by
  obtain ⟨htidy, hunpinned⟩ := Storage.unpinned_endStatement h.tidy
  have hsame := Storage.same_endStatement h.tidy
  obtain ⟨storage, hstorage, hend⟩ := session.endStatement_eq
  rw [← hstorage] at htidy hunpinned hsame
  rw [hend]
  exact ⟨h.of_alike rfl htidy hsame, hunpinned⟩

/-- A line that is not refused leaves everything in range. -/
theorem InRange.line (h : session.InRange count) {text : String} {after : Session}
    (hline : session.line text (count + 1) = (.ok (), after)) :
    after.endStatement.InRange (count + 1) := by
  have hemissions := h.line_emissions text
  obtain ⟨-, hresult⟩ := Build.yields_line (h.state.mono (Nat.le_succ count)) h.unpinned
    (Nat.succ_pos count) text
  have hok : ((Build.line text (count + 1)).run session.state).result = .ok () :=
    congrArg Prod.fst hline
  have hafter : (session.line text (count + 1)).2 = after := congrArg Prod.snd hline
  rw [hok] at hresult
  rw [hafter] at hemissions
  have hranged : after.state.Ranged (count + 1) := by
    rw [← hafter]
    exact hresult.1
  obtain ⟨hstate, hunpinned⟩ := ranged_endStatement hranged
  refine ⟨hstate, hunpinned, ?_⟩
  obtain ⟨storage, -, hend⟩ := after.endStatement_eq
  rw [hend]
  exact hemissions

/-- A line is refused only for a fault of the source. -/
theorem InRange.line_error (h : session.InRange count) {text : String} {after : Session}
    {error : CompileError} (hline : session.line text (count + 1) = (.error error, after)) :
    error.Refused := by
  obtain ⟨-, hresult⟩ := Build.yields_line (h.state.mono (Nat.le_succ count)) h.unpinned
    (Nat.succ_pos count) text
  have herror : ((Build.line text (count + 1)).run session.state).result = .error error :=
    congrArg Prod.fst hline
  rw [herror] at hresult
  exact hresult

theorem linesFrom_cons_ok {all rest : List String} {text : String} {number : Nat}
    {after : Session} (h : session.line text number = (.ok (), after)) :
    linesFrom all (text :: rest) number session =
      linesFrom all rest (number + 1) after.endStatement := by
  rw [linesFrom, h]

theorem linesFrom_cons_error {all rest : List String} {text : String} {number : Nat}
    {after : Session} {error : CompileError} (h : session.line text number = (.error error, after)) :
    linesFrom all (text :: rest) number session = (.error (blame all number error), after) := by
  rw [linesFrom, h]

/-- What holds after lines, up to the first that is refused. -/
structure Runs (all : List String) (count : Nat)
    (outcome : Except (Report CompileError) Unit × Session) : Prop where
  emissions : ∀ emission ∈ outcome.2.emissions, ∃ number, 1 ≤ number ∧ number ≤ count ∧
    emission.InRange number
  ok : outcome.1 = .ok () → outcome.2.InRange count
  error : ∀ report, outcome.1 = .error report → Blamed all report

/-- Lines in turn keep a session in range. -/
theorem InRange.linesFrom {all rest : List String} (h : session.InRange count)
    (hcount : count + rest.length ≤ all.length) :
    Runs all (count + rest.length) (Session.linesFrom all rest (count + 1) session) := by
  induction rest generalizing session count with
  | nil => exact ⟨fun e he => (h.emissions e he).1, fun _ => h, fun _ hr => (by cases hr)⟩
  | cons text rest ih =>
    rw [List.length_cons] at hcount
    have hemissions := h.line_emissions text
    rcases hline : session.line text (count + 1) with ⟨error | _, after⟩
    · rw [hline] at hemissions
      rw [linesFrom_cons_error hline]
      refine ⟨fun e he => ?_, fun hok => (by cases hok), fun report hreport => ?_⟩
      · obtain ⟨⟨number, hfrom, hto, hrange⟩, -⟩ := hemissions e he
        refine ⟨number, hfrom, ?_, hrange⟩
        rw [List.length_cons]
        omega
      · cases hreport
        exact blamed_blame (h.line_error hline) ⟨Nat.succ_pos count, by omega⟩
    · have hsum : count + (text :: rest).length = count + 1 + rest.length := by
        rw [List.length_cons]
        omega
      rw [linesFrom_cons_ok hline, hsum]
      exact ih (h.line hline) (by omega)

theorem runs_new {all rest : List String} (h : rest.length ≤ all.length) :
    Runs all rest.length (Session.linesFrom all rest 1 .new) := by
  have hruns := inRange_new.linesFrom (Nat.le_trans (Nat.le_of_eq (Nat.zero_add rest.length)) h)
  rwa [Nat.zero_add] at hruns

/-! ## Finishing -/

theorem mem_streamItems {stream : Scope} {item : Item} (h : item ∈ session.streamItems stream) :
    ∃ emission ∈ session.emissions, emission.item = item := by
  obtain ⟨emission, hmem, rfl⟩ := List.mem_map.1 h
  exact ⟨emission, (List.mem_filter.1 hmem).1, rfl⟩

theorem mem_items {item : Item} (h : item ∈ session.items) :
    ∃ emission ∈ session.emissions, emission.item = item := by
  rcases List.mem_append.1 h with h | h
  · exact mem_streamItems h
  · obtain ⟨id, -, h⟩ := List.mem_flatMap.1 h
    exact mem_streamItems h

theorem InRange.isLine (h : session.InRange lines.length) {number : Nat}
    (hn : number ∈ session.items.flatMap Item.lines) : IsLine lines number := by
  obtain ⟨item, hitem, hline⟩ := List.mem_flatMap.1 hn
  obtain ⟨emission, hmem, rfl⟩ := mem_items hitem
  obtain ⟨⟨place, hfrom, hto, hrange⟩, -⟩ := h.emissions emission hmem
  rw [hrange.lines number hline]
  exact ⟨hfrom, hto⟩

theorem InRange.fits (h : session.InRange count) {item : Item} (hitem : item ∈ session.items) :
    item.Fits := by
  obtain ⟨emission, hmem, rfl⟩ := mem_items hitem
  obtain ⟨⟨place, -, -, hrange⟩, -⟩ := h.emissions emission hmem
  exact hrange.fits

/-- What laying out finds at fault is the source's fault. -/
theorem InRange.assemble_error (h : session.InRange lines.length) {report : Report CompileError}
    (herror : session.assemble lines = .error report) : Blamed lines report := by
  have hdoes := Layout.does_lowerAll (fun _ => 0) lines (.empty session.state.labels) session.items
  unfold Layout.Does at hdoes
  unfold assemble EStateM.run at herror
  cases hlower : Layout.lowerAll lines session.items (.empty session.state.labels) with
  | error fault layout =>
    rw [hlower] at hdoes herror
    cases herror
    rcases hdoes with hblames | ⟨item, hitem, hmisfit⟩
    · exact blamed_layout hblames fun n hn => h.isLine hn
    · exact absurd (h.fits hitem) hmisfit
  | ok value layout =>
    rw [hlower] at hdoes herror
    obtain ⟨hemits, -⟩ := hdoes
    have hpatch := patchAll_spec layout.labels lines layout.fixups layout.bytes
      (hemits.sound (Layout.sound_empty _))
    simp only at herror
    rcases hrun : patchAll layout.labels lines layout.fixups layout.bytes with ⟨_ | _, bytes⟩
    · next fault =>
      rw [hrun] at hpatch herror
      cases herror
      refine blamed_layout hpatch fun n hn => ?_
      -- A jump that cannot be patched was recorded for an item, which has its line.
      obtain ⟨fixup, hfixup, rfl⟩ := List.mem_map.1 hn
      rcases hemits.lines fixup hfixup with hold | hline
      · cases hold
      · exact h.isLine hline
    · rw [hrun] at herror
      cases herror

/-- Code that can be laid out is that of the items. -/
theorem assemble_ok {bytes : List UInt8} (hok : session.assemble lines = .ok bytes) :
    ∃ layout, (Layout.lowerAll lines session.items).run (.empty session.state.labels) =
        .ok () layout ∧
      patchAll layout.labels lines layout.fixups layout.bytes = (.ok (), bytes) := by
  unfold assemble at hok
  cases hlower : (Layout.lowerAll lines session.items).run (.empty session.state.labels) with
  | error fault layout =>
    rw [hlower] at hok
    cases hok
  | ok value layout =>
    rw [hlower] at hok
    refine ⟨layout, rfl, ?_⟩
    simp only at hok
    rcases hrun : patchAll layout.labels lines layout.fixups layout.bytes with ⟨_ | _, patched⟩
    · rw [hrun] at hok
      cases hok
    · rw [hrun] at hok
      cases hok
      rfl

theorem InRange.isLine_last (h : session.InRange lines.length) {bytes : List UInt8}
    (hok : session.assemble lines = .ok bytes) (hsome : bytes ≠ []) :
    IsLine lines lines.length := by
  obtain ⟨layout, hlower, hpatch⟩ := assemble_ok hok
  have hbytes := (assembled_of_layout hlower hpatch).bytes_eq
  cases hitems : session.items with
  | nil =>
    rw [hitems] at hbytes
    exact absurd hbytes hsome
  | cons item rest =>
    obtain ⟨emission, hmem, -⟩ := mem_items (show item ∈ session.items by simp [hitems])
    obtain ⟨⟨number, hfrom, hto, -⟩, -⟩ := h.emissions emission hmem
    exact ⟨Nat.le_trans hfrom hto, Nat.le_refl _⟩

theorem lowestAddress?_isSome {storage : Storage} {address : UInt8}
    (h : storage.lowestAddress? = some address) : storage.vars ≠ [] := by
  intro hnil
  unfold Storage.lowestAddress? at h
  rw [hnil] at h
  cases h

theorem InRange.checkSize_error (h : session.InRange lines.length) {bytes : List UInt8}
    (hok : session.assemble lines = .ok bytes) {report : Report CompileError}
    (herror : session.checkSize lines bytes.length = .error report) : Blamed lines report := by
  unfold checkSize at herror
  split at herror
  · next hlarge =>
    cases herror
    refine blamed_blame (.inr (.inr (.inr rfl))) (h.isLine_last hok ?_)
    rintro rfl
    simp at hlarge
  · split at herror
    · cases herror
    · next lowest hlowest =>
      split at herror
      · cases herror
        obtain ⟨line, hline, hfrom, hto⟩ := h.state.declared (lowestAddress?_isSome hlowest)
        rw [hline]
        exact blamed_blame (.inr (.inr (.inr rfl))) ⟨hfrom, hto⟩
      · cases herror

/-- What finishing finds at fault is the source's fault. -/
theorem InRange.finish_error (h : session.InRange lines.length) {report : Report CompileError}
    (herror : session.finish lines = .error report) : Blamed lines report := by
  unfold finish at herror
  split at herror
  · next block outer hblocks =>
    cases herror
    -- A block is left open, and the line that opened it exists.
    have hblock := h.state.blocks block (by simp [hblocks])
    exact blamed_blame (.inr (.inr (.inr rfl))) hblock.line
  · cases hassemble : session.assemble lines with
    | error fault =>
      rw [hassemble] at herror
      cases herror
      exact h.assemble_error hassemble
    | ok bytes =>
      rw [hassemble] at herror
      cases hcheck : session.checkSize lines bytes.length with
      | error fault =>
        rw [show (Except.ok bytes >>= fun bytes => do
            session.checkSize lines bytes.length
            return Image.mk bytes) = .error fault by
          simp only [bind, Except.bind, hcheck]] at herror
        cases herror
        exact h.checkSize_error hassemble hcheck
      | ok value =>
        rw [show (Except.ok bytes >>= fun bytes => do
            session.checkSize lines bytes.length
            return Image.mk bytes) = .ok ⟨bytes⟩ by
          simp only [bind, Except.bind, hcheck, pure, Except.pure]] at herror
        cases herror

theorem finish_eq_ok {image : Image} (h : session.finish lines = .ok image) :
    session.assemble lines = .ok image.bytes ∧
      session.checkSize lines image.bytes.length = .ok () := by
  unfold finish at h
  split at h
  · cases h
  · cases hassemble : session.assemble lines with
    | error report =>
      rw [hassemble] at h
      cases h
    | ok bytes =>
      cases hcheck : session.checkSize lines bytes.length with
      | error report =>
        simp only [hassemble, hcheck, bind, Except.bind] at h
        cases h
      | ok _ =>
        simp only [hassemble, hcheck, bind, Except.bind] at h
        cases h
        exact ⟨rfl, hcheck⟩

theorem blocks_of_finish {image : Image} (h : session.finish lines = .ok image) :
    session.state.blocks = [] := by
  unfold finish at h
  split at h
  · cases h
  · next hblocks => exact hblocks

end Session

/-! ## All sources -/

/-- What becomes of a source all of whose lines are compiled is decided in the end. -/
theorem compile_eq_finish {source : String} {session : Session}
    (h : Session.linesFrom (Text.lines source) (Text.lines source) 1 .new = (.ok (), session)) :
    compile source = session.finish (Text.lines source) := by
  unfold compile compileLines
  rw [h]
  simp only
  split <;> simp_all

/-- A source with a line that is refused is refused for that line. -/
theorem compile_eq_error {source : String} {session : Session} {report : Report CompileError}
    (h : Session.linesFrom (Text.lines source) (Text.lines source) 1 .new = (.error report, session)) :
    compile source = .error report := by
  unfold compile compileLines
  rw [h]

theorem compile_eq_ok {source : String} {image : Image} (h : compile source = .ok image) :
    ∃ session, Session.linesFrom (Text.lines source) (Text.lines source) 1 .new = (.ok (), session) ∧
      session.finish (Text.lines source) = .ok image := by
  rcases hlines : Session.linesFrom (Text.lines source) (Text.lines source) 1 .new with
    ⟨report | _, session⟩
  · rw [compile_eq_error hlines] at h
    cases h
  · rw [compile_eq_finish hlines] at h
    exact ⟨session, rfl, h⟩

end ByteBasic
