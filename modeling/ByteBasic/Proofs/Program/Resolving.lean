import Mathlib.Data.List.NodupEquivFin
import ByteBasic.Proofs.Code.Faults
import ByteBasic.Proofs.Compiler.Labelling
import ByteBasic.Proofs.Program.Images

/-!
# Jumps find their labels

The books that are kept while lines are compiled (`Ledger`) say which labels are placed how often
once all blocks are closed. Laying out and patching stumble only over a label that is placed twice
and over a jump to one that is not placed (`Layout.leavesAll`, `patchAll_error`), so a label without
a name is never in the way: what is left is a name that several lines define, or that none does.

**Theorem (`labels_are_resolved`).** A source is compiled only if each name that a line jumps to is
defined by exactly one line. What is reported as a jump that cannot be resolved is a jump of the
line with that number to a name that no line defines. Labels without a name are placed once, and so
is every label that laying out adds.
-/

namespace ByteBasic

open Source (defines? jumpsTo? DefinedAt JumpedAt)

/-! ## Lines that define a name -/

section Definitions

variable {lines : List String} {name : String} {index : Nat}

theorem definedAt_iff :
    DefinedAt lines name index ↔ (lines.map defines?)[index]? = some (some name) := by
  unfold DefinedAt
  rw [List.getElem?_map]
  cases lines[index]? <;> simp

theorem count_pos_iff_definedAt :
    0 < (lines.map defines?).count (some name) ↔ ∃ index, DefinedAt lines name index := by
  simp only [List.count_pos_iff, List.mem_iff_getElem?, definedAt_iff]

theorem two_le_count_iff_definedAt :
    2 ≤ (lines.map defines?).count (some name) ↔
      ∃ first second, first < second ∧ DefinedAt lines name first ∧
        DefinedAt lines name second := by
  rw [← List.replicate_sublist_iff,
    show List.replicate 2 (some name) = [some name, some name] from rfl,
    ← List.duplicate_iff_sublist, List.duplicate_iff_exists_distinct_get]
  constructor
  · rintro ⟨⟨first, hfirst⟩, ⟨second, hsecond⟩, hlt, hname, hname'⟩
    refine ⟨first, second, hlt, definedAt_iff.2 ?_, definedAt_iff.2 ?_⟩
    · rw [hname, List.getElem?_eq_getElem hfirst]
      rfl
    · rw [hname', List.getElem?_eq_getElem hsecond]
      rfl
  · rintro ⟨first, second, hlt, hfirst, hsecond⟩
    obtain ⟨hfirst, hname⟩ := List.getElem?_eq_some_iff.1 (definedAt_iff.1 hfirst)
    obtain ⟨hsecond, hname'⟩ := List.getElem?_eq_some_iff.1 (definedAt_iff.1 hsecond)
    exact ⟨⟨first, hfirst⟩, ⟨second, hsecond⟩, hlt, hname.symm, hname'.symm⟩

/-- A name that is defined, but not twice, is defined by one line. -/
theorem existsUnique_definedAt (hsome : 0 < (lines.map defines?).count (some name))
    (honce : (lines.map defines?).count (some name) ≤ 1) :
    ∃! index, DefinedAt lines name index := by
  have hno : ∀ first second, first < second → DefinedAt lines name first →
      DefinedAt lines name second → False := by
    intro first second hlt hfirst hsecond
    have htwo := two_le_count_iff_definedAt.2 ⟨first, second, hlt, hfirst, hsecond⟩
    exact absurd (Nat.le_trans htwo honce) (by decide)
  obtain ⟨index, hindex⟩ := count_pos_iff_definedAt.1 hsome
  refine ⟨index, hindex, fun other hother => ?_⟩
  rcases Nat.lt_trichotomy other index with hlt | heq | hlt
  · exact (hno other index hlt hother hindex).elim
  · exact heq
  · exact (hno index other hlt hindex hother).elim

end Definitions

/-! ## Items that turn and those that are laid out -/

theorem Item.turns_of_mem_placed {item : Item} {id : LabelId} (h : id ∈ item.placed) :
    item.Turns := by
  obtain ⟨line, rfl⟩ := Item.mem_placed.1 h
  exact trivial

theorem Item.turns_of_mem_targets {item : Item} {id : LabelId} (h : id ∈ item.targets) :
    item.Turns := by
  cases item with
  | instruction i => cases h
  | halt => cases h
  | _ => exact trivial

theorem placedLabels_turning (events : List BuildEvent) :
    placedLabels ((turning events).map Prod.snd) =
      placedLabels ((streamed events).map Prod.snd) := by
  unfold turning
  induction streamed events with
  | nil => rfl
  | cons entry entries ih =>
    by_cases hturns : entry.2.Turns
    · rw [List.filter_cons_of_pos (by simpa using hturns), List.map_cons, List.map_cons,
        placedLabels_cons, placedLabels_cons, ih]
    · have hnone : entry.2.placed = [] :=
        List.eq_nil_iff_forall_not_mem.2 fun id hid => hturns (Item.turns_of_mem_placed hid)
      rw [List.filter_cons_of_neg (by simpa using hturns), List.map_cons, placedLabels_cons, hnone,
        ih]
      rfl

/-- A label that an item and one ahead of it place is placed twice. -/
theorem two_le_count_placedLabels {ahead : List Item} {id : LabelId} (h : id ∈ placedLabels ahead)
    (line : Nat) (behind : List Item) :
    2 ≤ (placedLabels (ahead ++ .label id line :: behind)).count id := by
  have hone := List.count_pos_iff.2 h
  have hsplit : placedLabels (ahead ++ .label id line :: behind) =
      placedLabels ahead ++ id :: placedLabels behind := List.flatMap_append
  rw [hsplit, List.count_append, List.count_cons_self]
  omega

namespace Session

variable {lines : List String} {count index : Nat} {session : Session} {name : String}
  {id target : LabelId} {item : Item}

theorem Reached.perm_items (h : Reached lines count session) :
    session.items.Perm ((streamed session.events).map Prod.snd) :=
  Session.perm_items h.inRange h.guarded

theorem Reached.count_placedLabels (h : Reached lines count session) (id : LabelId) :
    (placedLabels session.items).count id =
      (placedLabels ((turning session.events).map Prod.snd)).count id := by
  rw [placedLabels_turning]
  exact (h.perm_items.flatMap_right Item.placed).count_eq id

/-- Whenever all blocks are closed, labels without a name are placed once. -/
theorem Reached.count_unnamed (h : Reached lines count session)
    (hblocks : session.state.blocks = []) (hid : id ∈ session.state.labels.unnamed) :
    (placedLabels session.items).count id = 1 := by
  rw [h.count_placedLabels]
  exact h.ledger.count_unnamed hblocks hid

theorem Reached.mem_turning (h : Reached lines count session) (hitem : item ∈ session.items)
    (hturns : item.Turns) : ∃ scope, (scope, item) ∈ turning session.events := by
  obtain ⟨⟨scope, other⟩, hentry, rfl⟩ := List.mem_map.1 (h.perm_items.subset hitem)
  exact ⟨scope, List.mem_filter.2 ⟨hentry, by simpa using hturns⟩⟩

theorem Reached.mem_items (h : Reached lines count session) {entry : Scope × Item}
    (hentry : entry ∈ turning session.events) : entry.2 ∈ session.items :=
  h.perm_items.symm.subset (List.mem_map_of_mem (List.mem_filter.1 hentry).1)

theorem Reached.cover (h : Reached lines count session) :
    session.state.labels.Cover session.items :=
  fun _ hitem _ hlabel => h.inRange.label_lt hitem hlabel

/-! ## Closed sessions -/

/-- A label of a name is placed by two items, and a report is on the line of the one that is laid
out behind the other. -/
def Repeats (lines : List String) (session : Session) (report : Report CompileError)
    (name : String) : Prop :=
  ∃ ahead id line behind, session.items = ahead ++ .label id line :: behind ∧
    id ∈ placedLabels ahead ∧ session.state.labels.name id = name ∧
    report.line = some (sourceLine lines line)

/-- A report about labels is borne out by the lines or by the items that they put out. -/
structure Justified (lines : List String) (session : Session) (report : Report CompileError) :
    Prop where
  jump : report.kind = .jump → ∃ index text name, lines[index]? = some text ∧
    report = ⟨.layout (.unresolvedJump name), some ⟨index + 1, text⟩⟩ ∧
    JumpedAt lines name index ∧ ∀ other, ¬ DefinedAt lines name other
  duplicate : ∀ name, report.cause = .layout (.duplicateLabel name) →
    Repeats lines session report name

theorem cause_blame (lines : List String) (number : Nat) (error : CompileError) :
    (blame lines number error).cause = error :=
  Report.cause_orLine _ _

theorem kind_blame (lines : List String) (number : Nat) (error : CompileError) :
    (blame lines number error).kind = error.kind := by
  unfold Report.kind
  rw [cause_blame]
  rfl

theorem justified_blame (number : Nat) {error : CompileError} (hkind : error.kind ≠ .jump)
    (hcause : ∀ fault, error ≠ .layout fault) :
    Justified lines session (blame lines number error) where
  jump hjump := by
    rw [kind_blame] at hjump
    exact absurd hjump hkind
  duplicate name hname := by
    rw [cause_blame] at hname
    exact absurd hname (hcause _)

/-- Whether the code fits is no matter of labels. -/
theorem justified_of_checkSize {size : Nat} {report : Report CompileError}
    (h : session.checkSize lines size = .error report) :
    Justified lines session report := by
  unfold checkSize at h
  split at h
  · cases h
    exact justified_blame _ (fun hno => by cases hno) fun fault hno => by cases hno
  · split at h
    · cases h
    · split at h
      · cases h
        exact justified_blame _ (fun hno => by cases hno) fun fault hno => by cases hno
      · cases h

/-- All lines are compiled and no block is open: the session can be finished. -/
structure Closed (lines : List String) (session : Session) : Prop where
  reached : Reached lines lines.length session
  blocks : session.state.blocks = []

namespace Closed

variable {layout : Layout} {bytes : List UInt8} {report : Report CompileError}

theorem count_unnamed (h : Closed lines session) (hid : id ∈ session.state.labels.unnamed) :
    (placedLabels session.items).count id = 1 :=
  h.reached.count_unnamed h.blocks hid

/-- A label of the source is placed by every line that defines it. -/
theorem count_named (h : Closed lines session) (hfind : session.state.labels.find? name = some id) :
    (placedLabels session.items).count id = (lines.map defines?).count (some name) := by
  rw [h.reached.count_placedLabels, h.reached.ledger.count_named h.blocks hfind, List.take_length]

/-- A label that is mentioned has no name, or it is found under its name. -/
theorem unnamed_or_find? (h : Closed lines session) (hid : id < session.state.labels.size) :
    id ∈ session.state.labels.unnamed ∨
      session.state.labels.find? (session.state.labels.name id) = some id := by
  cases hnamed : session.state.labels.isNamed id with
  | false => exact .inl (Labels.mem_unnamed.2 ⟨hid, hnamed⟩)
  | true => exact .inr (h.reached.ledger.distinct id hnamed)

/-- When everything is laid out, a label that items place has a place. -/
theorem offset?_ne_none (h : Closed lines session)
    (hlower : (Layout.lowerAll lines session.items).run (.empty session.state.labels) =
      .ok () layout)
    (hid : 0 < (placedLabels session.items).count id) : layout.labels.offset? id ≠ none := by
  have hlowered := Layout.lowered_of_run h.reached.cover hlower
  obtain ⟨index, line, hitem⟩ := mem_placedLabels.1 (List.count_pos_iff.1 hid)
  rw [hlowered.placed index id line hitem]
  simp

/-- What laying out does to a closed session. -/
theorem leaves (h : Closed lines session)
    (hlower : (Layout.lowerAll lines session.items).run (.empty session.state.labels) =
      .ok () layout) :
    Layout.Leaves session.items (.empty session.state.labels) layout := by
  have hdoes := Layout.leavesAll lines (.empty session.state.labels) session.items
    h.reached.cover.placed
  unfold Layout.Does at hdoes
  rw [show Layout.lowerAll lines session.items (.empty session.state.labels) = .ok () layout
    from hlower] at hdoes
  exact hdoes

/-- If all jumps are resolved, each name that a line jumps to is defined by one line. -/
theorem existsUnique_definedAt (h : Closed lines session) (hok : session.assemble lines = .ok bytes)
    (hjumped : JumpedAt lines name index) : ∃! index, DefinedAt lines name index := by
  have hindex : index < lines.length := by
    by_contra hno
    rw [JumpedAt, List.getElem?_eq_none (Nat.le_of_not_lt hno)] at hjumped
    cases hjumped
  obtain ⟨entry, hentry, target, htarget, hfind⟩ := h.reached.ledger.jumps index hindex name hjumped
  obtain ⟨layout, hlower, hpatch⟩ := assemble_ok hok
  have hlowered := Layout.lowered_of_run h.reached.cover hlower
  have hassemblable := (hlowered.reach_iff h.reached.guarded.unplaced h.reached.cover).1
    ((patchAll_ok_iff hlowered.sound).1 ⟨bytes, hpatch⟩)
  obtain ⟨place, line, hplace, -⟩ :=
    hassemblable.reach entry.2 (h.reached.mem_items hentry) target htarget
  have hplaced := List.count_pos_iff.2 (mem_placedLabels.2 ⟨place, line, hplace⟩)
  have honce := List.nodup_iff_count_le_one.1 hassemblable.once target
  rw [h.count_named hfind] at hplaced honce
  exact ByteBasic.existsUnique_definedAt hplaced honce

/-- A jump that finds no place comes from a line that jumps to a name that no line defines. -/
theorem jumpedAt_of_unplaced (h : Closed lines session)
    (hlower : (Layout.lowerAll lines session.items).run (.empty session.state.labels) =
      .ok () layout)
    {fixup : Fixup} (hfixup : fixup ∈ layout.fixups)
    (hunplaced : layout.labels.offset? fixup.target = none) :
    ∃ index < lines.length, fixup.line = index + 1 ∧
      JumpedAt lines (layout.labels.name fixup.target) index ∧
      ∀ other, ¬ DefinedAt lines (layout.labels.name fixup.target) other := by
  have hleaves := h.leaves hlower
  rcases hleaves.fixups fixup hfixup with hno | ⟨item, hitem, hline, htarget | hplaced⟩
  · cases hno
  · obtain ⟨scope, hentry⟩ := h.reached.mem_turning hitem (Item.turns_of_mem_targets htarget)
    rcases h.reached.ledger.targets _ hentry _ htarget with
      hunnamed | ⟨index, hindex, hlines, name, hjumped, hfind⟩
    · have hone : 0 < (placedLabels session.items).count fixup.target := by
        rw [h.count_unnamed hunnamed]
        exact Nat.one_pos
      exact absurd hunplaced (h.offset?_ne_none hlower hone)
    · have hname : layout.labels.name fixup.target = name := by
        have hknown := h.reached.cover item hitem _ (Item.mem_labels_of_targets htarget)
        rw [hleaves.names _ hknown]
        exact (Labels.isNamed_of_find? hfind).2
      rw [hname]
      refine ⟨index, hindex, ?_, hjumped, fun other hother => ?_⟩
      · rw [hlines] at hline
        exact List.mem_singleton.1 hline
      · have hsome := count_pos_iff_definedAt.2 ⟨other, hother⟩
        rw [← h.count_named hfind] at hsome
        exact h.offset?_ne_none hlower hsome hunplaced
  · exact absurd hunplaced hplaced

/-- A label that is placed twice has a name. -/
theorem find?_of_twice (h : Closed lines session) (htwice : 2 ≤ (placedLabels session.items).count id) :
    session.state.labels.find? (session.state.labels.name id) = some id := by
  have hid : id ∈ placedLabels session.items :=
    List.count_pos_iff.1 (Nat.lt_of_lt_of_le Nat.zero_lt_two htwice)
  rcases h.unnamed_or_find? (h.reached.cover.placed id hid) with hunnamed | hfind
  · rw [h.count_unnamed hunnamed] at htwice
    exact absurd htwice (by decide)
  · exact hfind

/-- A label that is placed twice has a name that two lines define. -/
theorem definedAt_of_twice (h : Closed lines session)
    (htwice : 2 ≤ (placedLabels session.items).count id) :
    ∃ first second, first < second ∧ DefinedAt lines (session.state.labels.name id) first ∧
      DefinedAt lines (session.state.labels.name id) second := by
  rw [h.count_named (h.find?_of_twice htwice)] at htwice
  exact two_le_count_iff_definedAt.1 htwice

/-- What laying out stumbles over is borne out. -/
theorem justified_of_stumbles (h : Closed lines session) {fault : Report LayoutError}
    (hstumbles : Layout.Stumbles lines session.items (.empty session.state.labels) fault) :
    Justified lines session (fault.map .layout) where
  jump hkind := absurd hkind hstumbles.kind
  duplicate name hcause := by
    obtain ⟨ahead, id, line, behind, hitems, hname, hline, hplaced | hahead⟩ :=
      hstumbles.twice name (CompileError.layout.inj hcause)
    · exact absurd (h.reached.guarded.unplaced id) hplaced
    · exact ⟨ahead, id, line, behind, hitems, hahead, hname, hline⟩

/-- What cannot be laid out and patched is reported as it is. -/
theorem assemble_error (h : Closed lines session)
    (herror : session.assemble lines = .error report) : Justified lines session report := by
  unfold assemble at herror
  have hstumbles := Layout.leavesAll lines (.empty session.state.labels) session.items
    h.reached.cover.placed
  unfold Layout.Does at hstumbles
  cases hlower : (Layout.lowerAll lines session.items).run (.empty session.state.labels) with
  | error fault layout =>
    rw [show Layout.lowerAll lines session.items (.empty session.state.labels) = .error fault layout
      from hlower] at hstumbles
    rw [hlower] at herror
    cases herror
    exact h.justified_of_stumbles hstumbles
  | ok _ layout =>
    rw [hlower] at herror
    simp only at herror
    rcases hpatch : patchAll layout.labels lines layout.fixups layout.bytes with ⟨fault | _, bytes⟩
    · rw [hpatch] at herror
      cases herror
      -- Laid out, but not patched: only a jump without a target concerns labels.
      rcases patchAll_error (congrArg Prod.fst hpatch) with
        ⟨fixup, hfixup, hunplaced, rfl⟩ | ⟨hkind, hcause⟩
      · obtain ⟨index, hindex, hline, hjumped, hnone⟩ :=
          h.jumpedAt_of_unplaced hlower hfixup hunplaced
        refine ⟨fun _ => ?_, fun name hno => by cases hno⟩
        refine ⟨index, lines[index], _, List.getElem?_eq_getElem hindex, ?_, hjumped, hnone⟩
        have hsource : sourceLine lines (index + 1) = ⟨index + 1, lines[index]⟩ := by
          simp [sourceLine, hindex]
        rw [Report.map, hline, hsource]
      · refine ⟨fun hno => absurd hno hkind, fun name hno => ?_⟩
        exact absurd (CompileError.layout.inj hno) (hcause name)
    · rw [hpatch] at herror
      cases herror

/-- A closed session that cannot be finished is reported as it is. -/
theorem finish_error (h : Closed lines session) (herror : session.finish lines = .error report) :
    Justified lines session report := by
  unfold finish at herror
  rw [h.blocks] at herror
  cases hassemble : session.assemble lines with
  | error fault =>
    rw [hassemble] at herror
    cases herror
    exact h.assemble_error hassemble
  | ok bytes =>
    cases hcheck : session.checkSize lines bytes.length with
    | error fault =>
      simp only [hassemble, hcheck, bind, Except.bind] at herror
      cases herror
      exact justified_of_checkSize hcheck
    | ok _ =>
      simp only [hassemble, hcheck, bind, Except.bind] at herror
      cases herror

end Closed

/-- Where blocks are left open, one of them is at fault. -/
theorem cause_of_open {report : Report CompileError} (hblocks : session.state.blocks ≠ [])
    (herror : session.finish lines = .error report) :
    ∃ keyword, report.cause = .unterminated keyword := by
  unfold finish at herror
  split at herror
  · next block _ _ =>
    cases herror
    exact ⟨block.keyword, cause_blame ..⟩
  · next hnone => exact absurd hnone hblocks

/-- Where blocks are left open, no label is at fault. -/
theorem kind_of_open {report : Report CompileError} (hblocks : session.state.blocks ≠ [])
    (herror : session.finish lines = .error report) : report.kind ≠ .jump := by
  obtain ⟨keyword, hcause⟩ := cause_of_open hblocks herror
  unfold Report.kind
  rw [hcause]
  exact fun hno => by cases hno

end Session

/-- **Jumps find their labels.** A source is compiled only if each name that a line jumps to is
defined by exactly one line. A report of a jump names a label that no line defines, and is blamed on
a line that jumps to it. Whenever all blocks are closed, every label that the source cannot refer to
is placed by one item. When all lines are compiled, too, a label that laying out adds is placed by no
item and has a place when all items are laid out, and a label is reported as placed twice only if two
lines define its name. -/
theorem labels_are_resolved (source : String) :
    let lines := Text.lines source
    (∀ image, compile source = .ok image → ∀ name, (∃ index, JumpedAt lines name index) →
      ∃! index, DefinedAt lines name index) ∧
    (∀ name, (∃ index, JumpedAt lines name index) → (∀ index, ¬ DefinedAt lines name index) →
      ∀ image, compile source ≠ .ok image) ∧
    (∀ report, compile source = .error report → report.kind = .jump →
      ∃ index text name, lines[index]? = some text ∧
        report = ⟨.layout (.unresolvedJump name), some ⟨index + 1, text⟩⟩ ∧
        JumpedAt lines name index ∧ ∀ other, ¬ DefinedAt lines name other) ∧
    (∀ count session, Session.linesFrom lines (lines.take count) 1 .new = (.ok (), session) →
      session.state.blocks = [] →
      ∀ id ∈ session.state.labels.unnamed, (placedLabels session.items).count id = 1) ∧
    ∀ session, Session.linesFrom lines lines 1 .new = (.ok (), session) →
      session.state.blocks = [] →
      (∀ layout, (Layout.lowerAll lines session.items).run (.empty session.state.labels) =
          .ok () layout → ∀ id < layout.labels.size, session.state.labels.size ≤ id →
        layout.labels.offset? id ≠ none ∧ id ∉ placedLabels session.items) ∧
      ∀ report name, compile source = .error report →
        report.cause = .layout (.duplicateLabel name) →
        ∃ first second, first < second ∧ DefinedAt lines name first ∧
          DefinedAt lines name second := by
  intro lines
  have honce : ∀ image, compile source = .ok image → ∀ name, (∃ index, JumpedAt lines name index) →
      ∃! index, DefinedAt lines name index := by
    rintro image himage name ⟨index, hjumped⟩
    obtain ⟨session, hall, hfinish⟩ := compile_eq_ok himage
    have hclosed : session.Closed lines :=
      ⟨Session.reached_all hall, Session.blocks_of_finish hfinish⟩
    exact hclosed.existsUnique_definedAt (Session.finish_eq_ok hfinish).1 hjumped
  refine ⟨honce, ?_, ?_, ?_, ?_⟩
  · intro name hjumped hnone image himage
    obtain ⟨index, hindex, -⟩ := honce image himage name hjumped
    exact hnone index hindex
  · intro report hreport hkind
    rcases Session.take_cases lines lines.length (Nat.le_refl _) with
      ⟨session, hall, hreached⟩ | ⟨index, before, text, error, after, -, hbefore, -, hline, hall⟩
    · rw [List.take_length] at hall
      -- Only a session whose blocks are closed can be refused for a jump.
      rw [compile_eq_finish hall] at hreport
      by_cases hblocks : session.state.blocks = []
      · exact (Session.Closed.finish_error ⟨hreached, hblocks⟩ hreport).jump hkind
      · exact absurd hkind (Session.kind_of_open hblocks hreport)
    · rw [List.take_length] at hall
      -- A line by itself is never refused for a jump.
      rw [compile_eq_error hall] at hreport
      cases hreport
      rw [Session.kind_blame] at hkind
      exact absurd hkind (hbefore.refused hline).1
  · intro count session hbegun hblocks id hid
    rcases Nat.le_total count lines.length with hcount | hcount
    · exact (Session.reached_of_linesFrom hcount hbegun).count_unnamed hblocks hid
    · rw [List.take_of_length_le hcount] at hbegun
      exact (Session.reached_all hbegun).count_unnamed hblocks hid
  · intro session hall hblocks
    have hclosed : session.Closed lines := ⟨Session.reached_all hall, hblocks⟩
    refine ⟨?_, ?_⟩
    · intro layout hlower id hid hadded
      refine ⟨(hclosed.leaves hlower).added id hid hadded, fun hplaced => ?_⟩
      have hknown := hclosed.reached.cover.placed id hplaced
      exact absurd hknown (Nat.not_lt_of_le hadded)
    · intro report name hreport hcause
      rw [compile_eq_finish hall] at hreport
      obtain ⟨ahead, id, line, behind, hitems, hahead, hname, -⟩ :=
        (hclosed.finish_error hreport).duplicate name hcause
      -- An item ahead places the label, too, so two lines define its name.
      have htwice := two_le_count_placedLabels hahead line behind
      rw [← hitems] at htwice
      rw [← hname]
      exact hclosed.definedAt_of_twice htwice

/-- A function jumps out to the global stream, past an `if` with an `else`. In two other sources a
label is missing, and there twice. -/
theorem labels_are_resolved_function :
    let source := "var n\nfunction count()\nn += 1\nif n == 9 : goto done\nend\n:loop\ncount()\n" ++
      "if n > 5\nn += 1\nelse\nn += 2\nend\ngoto loop\n:done\nexit 0"
    let stray := "var n\nif n > 0 : goto nowhere\n:here\nexit 1"
    let twice := ":here\n:there\ngoto here\n:here"
    ((∃! index, DefinedAt (Text.lines source) "done" index) ∧
      ∃! index, DefinedAt (Text.lines source) "loop" index) ∧
    (∃ session, Session.linesFrom (Text.lines source) ((Text.lines source).take 12) 1 .new =
        (.ok (), session) ∧
      session.state.labels.unnamed.length = 5 ∧
      ∀ id ∈ session.state.labels.unnamed, (placedLabels session.items).count id = 1) ∧
    (∃ index text name, compile stray =
        .error ⟨.layout (.unresolvedJump name), some ⟨index + 1, text⟩⟩ ∧
      JumpedAt (Text.lines stray) name index ∧ ∀ other, ¬ DefinedAt (Text.lines stray) name other) ∧
    ∃ first second, first < second ∧ DefinedAt (Text.lines twice) "here" first ∧
      DefinedAt (Text.lines twice) "here" second := by
  intro source stray twice
  have hsource : (compile source).toOption.isSome = true ∧
      (Text.lines source)[3]?.bind jumpsTo? = some "done" ∧
      (Text.lines source)[12]?.bind jumpsTo? = some "loop" := by decide +kernel
  have hsession :
      let outcome := Session.linesFrom (Text.lines source) ((Text.lines source).take 12) 1 .new
      outcome.1.toOption = some () ∧ outcome.2.state.blocks = [] ∧
        outcome.2.state.labels.unnamed.length = 5 := by decide +kernel
  have hstray : (((compile stray).map fun _ => none).tryCatch fun report =>
      .ok (some report.kind)).toOption = some (some .jump) := by decide +kernel
  have htwice : (((compile twice).map fun _ => none).tryCatch fun report =>
      .ok (some report.cause)).toOption = some (some (.layout (.duplicateLabel "here"))) := by
    decide +kernel
  -- A name that is defined twice is only found out when everything is laid out.
  have hopen :
      let outcome := Session.linesFrom (Text.lines twice) (Text.lines twice) 1 .new
      outcome.1.toOption = some () ∧ outcome.2.state.blocks = [] := by decide +kernel
  refine ⟨?_, ?_, ?_, ?_⟩
  · obtain ⟨hcompiled, hdone, hloop⟩ := hsource
    cases himage : compile source with
    | error report =>
      rw [himage] at hcompiled
      cases hcompiled
    | ok image =>
      have honce := (labels_are_resolved source).1 image himage
      exact ⟨honce "done" ⟨3, hdone⟩, honce "loop" ⟨12, hloop⟩⟩
  · rcases hlines : Session.linesFrom (Text.lines source) ((Text.lines source).take 12) 1 .new with
      ⟨report | _, session⟩
    · rw [hlines] at hsession
      cases hsession.1
    · rw [hlines] at hsession
      obtain ⟨-, hblocks, hlength⟩ := hsession
      have honce := (labels_are_resolved source).2.2.2.1 12 session hlines hblocks
      exact ⟨session, rfl, hlength, honce⟩
  · cases hreport : compile stray with
    | error report =>
      rw [hreport] at hstray
      have hkind := Option.some.inj (Option.some.inj hstray)
      obtain ⟨index, text, name, -, rfl, hjumped, hnone⟩ :=
        (labels_are_resolved stray).2.2.1 report hreport hkind
      exact ⟨index, text, name, rfl, hjumped, hnone⟩
    | ok image =>
      rw [hreport] at hstray
      cases hstray
  · cases hreport : compile twice with
    | error report =>
      rw [hreport] at htwice
      have hcause := Option.some.inj (Option.some.inj htwice)
      rcases hlines : Session.linesFrom (Text.lines twice) (Text.lines twice) 1 .new with
        ⟨fault | _, session⟩
      · rw [hlines] at hopen
        cases hopen.1
      · rw [hlines] at hopen
        have hclosed := (labels_are_resolved twice).2.2.2.2 session hlines hopen.2
        exact hclosed.2 report "here" hreport hcause
    | ok image =>
      rw [hreport] at htwice
      cases htwice

end ByteBasic
