import ByteBasic.Proofs.Code.Resolution

/-!
# What laying out and patching stumble over

Laying out adds labels of its own, one for each comparison that goes on behind itself, and places
them at once. So if a label is in the way, it is one that two items place, and if a jump finds no
label, its target is one that no item places; in both cases the report calls the label by the name
that it had at the start.

**Theorem (`Layout.leavesAll`).** Laying out items fails at a label only if the items place it
twice, and then at an item that is not the first to place it. If it succeeds, every label that was
added has a place, and every recorded jump has the line of an item and goes to one of its targets or
to a label that has a place.

**Theorem (`patchAll_error`).** Patching fails for want of a label only if the target of a recorded
jump has no place, and the report has the name of that target and the line of that jump.
-/

namespace ByteBasic

theorem Labels.name_fresh_of_lt (labels : Labels) (name : String) {id : LabelId}
    (h : id < labels.size) : (labels.fresh name).2.name id = labels.name id := by
  have hlt : id < labels.entries.length := h
  simp [fresh, add, Labels.name, List.getElem?_append_left hlt]

theorem Labels.size_fresh (labels : Labels) (name : String) :
    (labels.fresh name).2.size = labels.size + 1 := by
  simp [fresh, add, size]

namespace Layout

/-! ## Jumps -/

/-- A part of laying out that leaves the labels alone and records only jumps of one line to some
targets. -/
structure Marks (line : Nat) (targets : LabelId → Prop) (before after : Layout) : Prop where
  labels : after.labels = before.labels
  fixups : ∀ fixup ∈ after.fixups, fixup ∈ before.fixups ∨
    fixup.line = line ∧ targets fixup.target

namespace Marks

variable {line : Nat} {targets targets' : LabelId → Prop} {a b c : Layout}

theorem refl (layout : Layout) : Marks line targets layout layout :=
  ⟨rfl, fun _ h => .inl h⟩

theorem trans (h₁ : Marks line targets a b) (h₂ : Marks line targets b c) :
    Marks line targets a c := by
  refine ⟨h₂.labels.trans h₁.labels, fun fixup hmem => ?_⟩
  rcases h₂.fixups fixup hmem with hmem | hnew
  · exact h₁.fixups fixup hmem
  · exact .inr hnew

theorem mono (h : Marks line targets a b) (himp : ∀ id, targets id → targets' id) :
    Marks line targets' a b :=
  ⟨h.labels, fun fixup hmem => (h.fixups fixup hmem).imp_right fun hnew => ⟨hnew.1, himp _ hnew.2⟩⟩

end Marks

variable (lines : List String) (layout : Layout) (line : Nat) (targets : LabelId → Prop)

theorem marks_append (instruction : Instruction) :
    Does (append instruction) layout (fun _ after => Marks line targets layout after)
      fun report => report.kind = .internal :=
  .of_append (fun _ => ⟨rfl, fun _ h => .inl h⟩) fun _ _ => rfl

theorem marks_jump (test : JumpTest) (register : UInt8) {target : LabelId} (h : targets target) :
    Does (jump test register target line) layout (fun _ after => Marks line targets layout after)
      fun report => report.kind = .internal := by
  refine .of_jump (fun _ => ⟨rfl, fun fixup hmem => ?_⟩) fun _ _ => rfl
  rcases List.mem_append.1 hmem with hmem | hmem
  · exact .inl hmem
  · rw [List.mem_singleton.1 hmem]
    exact .inr ⟨rfl, h⟩

theorem marks_jumpAll (tests : List JumpTest) (register : UInt8) {target : LabelId}
    (h : targets target) :
    Does (jumpAll tests register target line) layout
      (fun _ after => Marks line targets layout after) fun report => report.kind = .internal := by
  induction tests generalizing layout with
  | nil => exact Marks.refl layout
  | cons test tests ih =>
    refine Does.bind (marks_jump layout line targets test register h) fun _ mid hmid => ?_
    exact (ih mid).imp (fun _ _ hlast => hmid.trans hlast) fun _ hbad => hbad

theorem marks_jumpOtherwise (target : Target) (h : ∀ id ∈ target.labels, targets id) :
    Does (jumpOtherwise target line) layout (fun _ after => Marks line targets layout after)
      fun report => report.kind = .internal := by
  cases target with
  | label id => exact marks_jump layout line targets .equal 0 (h id (List.mem_singleton_self id))
  | next => exact Marks.refl layout

/-! ## Items -/

/-- What laying out items leaves: every label keeps its name, the labels that were added have a
place, and jumps go to the targets of items or to labels that have a place. -/
structure Leaves (items : List Item) (before after : Layout) : Prop where
  names : ∀ id < before.labels.size, after.labels.name id = before.labels.name id
  added : ∀ id < after.labels.size, before.labels.size ≤ id → after.labels.offset? id ≠ none
  fixups : ∀ fixup ∈ after.fixups, fixup ∈ before.fixups ∨ ∃ item ∈ items,
    fixup.line ∈ item.lines ∧
      (fixup.target ∈ item.targets ∨ after.labels.offset? fixup.target ≠ none)

/-- A report about items that is not about a jump. A label is reported on the line of an item that
places it, and only if it had a place already or an item ahead of that one places it, too. -/
structure Stumbles (items : List Item) (before : Layout) (report : Report LayoutError) : Prop where
  kind : report.kind ≠ .jump
  twice : ∀ name, report.cause = .duplicateLabel name → ∃ ahead id line behind,
    items = ahead ++ .label id line :: behind ∧ before.labels.name id = name ∧
      report.line = some (sourceLine lines line) ∧
      (before.labels.offset? id ≠ none ∨ id ∈ placedLabels ahead)

theorem stumbles_internal {items : List Item} {report : Report LayoutError}
    (h : report.kind = .internal) : Stumbles lines items layout report where
  kind hno := by
    rw [h] at hno
    cases hno
  twice name hname := by
    have hkind : report.kind = .compile := by
      unfold Report.kind
      rw [hname]
      rfl
    rw [h] at hkind
    cases hkind

theorem Marks.leaves {item : Item} {before after : Layout} {line : Nat}
    (h : Marks line (· ∈ item.targets) before after) (hline : line ∈ item.lines) :
    Leaves [item] before after where
  names id _ := by rw [h.labels]
  added id hid hle := by
    rw [h.labels] at hid
    exact absurd hid (Nat.not_lt_of_le hle)
  fixups fixup hmem := (h.fixups fixup hmem).imp_right fun hnew =>
    ⟨item, List.mem_singleton_self item, by rw [hnew.1]; exact hline, .inl hnew.2⟩

theorem leaves_label (label : LabelId) (line : Nat) :
    Does (Layout.place lines label line) layout
      (fun _ after => Leaves [.label label line] layout after)
      (Stumbles lines [.label label line] layout) := by
  refine (places_place lines layout label line).imp ?_ fun report hbad => ?_
  · rintro _ _ ⟨-, rfl⟩
    refine ⟨fun id _ => Labels.name_define _ _ _ _, fun id hid hle => ?_, fun _ hmem => .inl hmem⟩
    rw [Labels.size_define] at hid
    exact absurd hid (Nat.not_lt_of_le hle)
  · obtain ⟨hplaced, rfl⟩ := hbad
    refine ⟨fun hno => (by cases hno), fun name hname => ?_⟩
    cases hname
    exact ⟨[], label, line, [], rfl, rfl, rfl, .inl hplaced⟩

theorem leaves_compare (comparison : Comparison) (register : UInt8) (accept reject : Target)
    (line : Nat) :
    Does (compare lines comparison register accept reject line) layout
      (fun _ after => Leaves [.compare comparison register accept reject line] layout after)
      (Stumbles lines [.compare comparison register accept reject line] layout) := by
  have htargets := mem_targets_compare comparison register accept reject line
  have hline : line ∈ (Item.compare comparison register accept reject line).lines :=
    List.mem_singleton_self line
  generalize hitem : Item.compare comparison register accept reject line = item at htargets hline ⊢
  unfold compare
  generalize comparison.verdict.opposite.pick accept reject = otherwise at htargets ⊢
  cases htaken : comparison.verdict.pick accept reject with
  | label id =>
    rw [htaken] at htargets
    have hid : id ∈ item.targets := (htargets id).2 (.inl (List.mem_singleton_self id))
    refine Does.bind ((marks_jumpAll layout line (· ∈ item.targets) comparison.tests register
      hid).imp (fun _ _ h => h) fun _ => stumbles_internal lines layout) fun _ mid hmid => ?_
    refine (marks_jumpOtherwise mid line _ otherwise fun other h => (htargets other).2 (.inr h)).imp
      (fun _ after hlast => (hmid.trans hlast).leaves hline) fun _ => stumbles_internal lines layout
  | next =>
    rw [htaken] at htargets
    refine Does.bind ((places_joinLabel layout).imp (fun _ _ h => h) fun _ h => h.elim)
      fun join start hjoin => ?_
    obtain ⟨rfl, name, rfl⟩ := hjoin
    -- The tests go to the new label, whatever else the comparison jumps to.
    refine Does.bind ((marks_jumpAll _ line (fun id => id ∈ item.targets ∨ id = layout.labels.size)
      comparison.tests register (.inr rfl)).imp (fun _ _ h => h) fun _ => stumbles_internal lines layout)
      fun _ mid hmid => ?_
    refine Does.bind ((marks_jumpOtherwise mid line (· ∈ item.targets) otherwise fun other h =>
      (htargets other).2 (.inr h)).imp (fun _ _ h => h) fun _ => stumbles_internal lines layout)
      fun _ last hlast => ?_
    obtain ⟨hlabels, hfixups⟩ := hmid.trans (hlast.mono fun _ => Or.inl)
    refine (places_fresh lines layout hlabels line).imp (fun _ after hafter => ?_) fun _ h => h.elim
    have hplaced : after.labels.offset? layout.labels.size ≠ none := by
      rw [hafter, Labels.offset?_define_fresh]
      exact fun h => by cases h
    have hnames : ∀ id, after.labels.name id = (layout.labels.fresh name).2.name id := fun id => by
      rw [hafter, Labels.name_define]
    have hsize : after.labels.size = layout.labels.size + 1 := by
      rw [hafter, Labels.size_define, Labels.size_fresh]
    have hsame : after.fixups = last.fixups := by rw [hafter]
    -- The one label that was added has a place, and so have the jumps to it.
    refine ⟨fun id hid => ?_, fun id hid hle => ?_, fun fixup hmem => ?_⟩
    · rw [hnames, Labels.name_fresh_of_lt _ _ hid]
    · rw [hsize] at hid
      obtain rfl : id = layout.labels.size := Nat.le_antisymm (Nat.le_of_lt_succ hid) hle
      exact hplaced
    · rw [hsame] at hmem
      refine (hfixups fixup hmem).imp_right fun hnew => ?_
      refine ⟨item, List.mem_singleton_self item, by rw [hnew.1]; exact hline, ?_⟩
      exact hnew.2.imp_right fun htarget => by rw [htarget]; exact hplaced

theorem leaves_call (main : LabelId) (line : Nat) :
    Does (call lines main line) layout (fun _ after => Leaves [.call main line] layout after)
      (Stumbles lines [.call main line] layout) := by
  unfold call
  refine Does.get ?_
  by_cases hback : layout.bytes.length + 6 > 255
  · simp only [if_pos hback]
    have hreport : (Report.ofCause (LayoutError.distantReturn (layout.bytes.length + 6))).orLine
        (sourceLine lines line) = ⟨_, some (sourceLine lines line)⟩ :=
      Report.orLine_ofCause (fun h => by cases h) _
    refine ⟨?_, fun name hname => ?_⟩
    · rw [hreport]
      exact fun h => by cases h
    · rw [hreport] at hname
      cases hname
  · simp only [if_neg hback]
    refine Does.bind ((marks_append layout line (· ∈ [main]) _).imp (fun _ _ h => h)
      fun _ => stumbles_internal lines layout) fun _ loaded hload => ?_
    refine Does.bind ((marks_append loaded line (· ∈ [main]) _).imp (fun _ _ h => h)
      fun _ => stumbles_internal lines layout) fun _ pushed hpush => ?_
    refine (marks_jump pushed line _ .equal 0 (List.mem_singleton_self main)).imp
      (fun _ after hjump => ?_) fun _ => stumbles_internal lines layout
    exact ((hload.trans hpush).trans hjump).leaves (List.mem_singleton_self line)

/-- Laying out an item fails at a label only if the item places it. -/
theorem leaves_lower (item : Item) :
    Does (lower lines item) layout (fun _ after => Leaves [item] layout after)
      (Stumbles lines [item] layout) := by
  have hplain : ∀ i other, Does (append i) layout (fun _ after => Leaves [other] layout after)
      (Stumbles lines [other] layout) := by
    intro i other
    refine (marks_append layout 0 (fun _ => False) i).imp (fun _ after h => ?_)
      fun _ => stumbles_internal lines layout
    refine ⟨fun id _ => (by rw [h.labels]), fun id hid hle => ?_, fun fixup hmem => ?_⟩
    · rw [h.labels] at hid
      exact absurd hid (Nat.not_lt_of_le hle)
    · exact (h.fixups fixup hmem).imp_right fun hno => hno.2.elim
  cases item with
  | label label line => exact leaves_label lines layout label line
  | instruction instruction => exact hplain instruction _
  | jump test register target line =>
    exact (marks_jump layout line _ test register (List.mem_singleton_self target)).imp
      (fun _ _ h => h.leaves (List.mem_singleton_self line)) fun _ => stumbles_internal lines layout
  | goto target line =>
    exact (marks_jump layout line _ .equal 0 (List.mem_singleton_self target)).imp
      (fun _ _ h => h.leaves (List.mem_singleton_self line)) fun _ => stumbles_internal lines layout
  | compare comparison register accept reject line =>
    exact leaves_compare lines layout comparison register accept reject line
  | call main line => exact leaves_call lines layout main line
  | ret => exact hplain (.move (.special .stack) (.special .programCounter)) _
  | halt => exact hplain .halt _

/-! ## Lists of items -/

section Cons

variable {lines layout} {item : Item} {items : List Item} {mid after : Layout}

theorem Leaves.cons (hmid : Leaves [item] layout mid) (h : Leaves items mid after)
    (hextends : mid.labels.Extends after.labels) (hsize : layout.labels.size ≤ mid.labels.size) :
    Leaves (item :: items) layout after where
  names id hid := (h.names id (Nat.lt_of_lt_of_le hid hsize)).trans (hmid.names id hid)
  added id hid hle := by
    by_cases hlt : id < mid.labels.size
    · obtain ⟨offset, hoffset⟩ := Option.ne_none_iff_exists'.1 (hmid.added id hlt hle)
      rw [hextends.offset id offset hoffset]
      exact fun hno => by cases hno
    · exact h.added id hid (Nat.le_of_not_lt hlt)
  fixups fixup hmem := by
    rcases h.fixups fixup hmem with hmem | ⟨other, hother, hnew⟩
    · rcases hmid.fixups fixup hmem with hmem | ⟨other, hother, hline, htarget⟩
      · exact .inl hmem
      · obtain rfl := List.mem_singleton.1 hother
        refine .inr ⟨other, List.mem_cons_self .., hline, htarget.imp_right fun hplaced => ?_⟩
        obtain ⟨offset, hoffset⟩ := Option.ne_none_iff_exists'.1 hplaced
        rw [hextends.offset _ offset hoffset]
        exact fun hno => by cases hno
    · exact .inr ⟨other, List.mem_cons_of_mem _ hother, hnew⟩

theorem Stumbles.head {report : Report LayoutError} (h : Stumbles lines [item] layout report) :
    Stumbles lines (item :: items) layout report where
  kind := h.kind
  twice name hname := by
    obtain ⟨ahead, id, line, behind, hitem, hrest⟩ := h.twice name hname
    exact ⟨ahead, id, line, behind ++ items, by simpa using congrArg (· ++ items) hitem, hrest⟩

/-- A label that was free before the first item and is in the way behind it is placed by it. -/
theorem Stumbles.cons {report : Report LayoutError} (h : Stumbles lines items mid report)
    (hmid : Leaves [item] layout mid) (hlowers : Lowers item layout mid)
    (known : ∀ label ∈ placedLabels items, label < layout.labels.size) :
    Stumbles lines (item :: items) layout report where
  kind := h.kind
  twice name hname := by
    obtain ⟨ahead, id, line, behind, rfl, hcalled, hline, htwice⟩ := h.twice name hname
    have hid : id < layout.labels.size := known id (by simp [placedLabels, Item.placed])
    refine ⟨item :: ahead, id, line, behind, rfl, ?_, hline, ?_⟩
    · rw [← hmid.names id hid]
      exact hcalled
    · rw [placedLabels_cons]
      rcases htwice with hplaced | hahead
      · by_cases hfirst : id ∈ item.placed
        · exact .inr (List.mem_append_left _ hfirst)
        · rw [hlowers.others id hid hfirst] at hplaced
          exact .inl hplaced
      · exact .inr (List.mem_append_right _ hahead)

end Cons

/-- Laying out items fails at a label only if it has a place already or the items place it twice,
and then at the item that is in the way. -/
theorem leavesAll (items : List Item)
    (known : ∀ label ∈ placedLabels items, label < layout.labels.size) :
    Does (lowerAll lines items) layout (fun _ after => Leaves items layout after)
      (Stumbles lines items layout) := by
  induction items generalizing layout with
  | nil =>
    exact ⟨fun _ _ => rfl, fun id hid hle => absurd hid (Nat.not_lt_of_le hle), fun _ h => .inl h⟩
  | cons item items ih =>
    rw [placedLabels_cons] at known
    have hknown : ∀ label ∈ placedLabels items, label < layout.labels.size :=
      fun label hl => known label (List.mem_append_right _ hl)
    have hfirst := ((leaves_lower lines layout item).and (lowers_lower lines layout item)).and
      (does_lower (fun _ => 0) lines layout item)
    refine Does.bind (hfirst.imp (fun _ _ h => h) fun _ => Stumbles.head) fun _ mid hmid => ?_
    obtain ⟨⟨hleaves, hlowers⟩, hemits, -⟩ := hmid
    have hsize := hemits.labels.size_le
    have hrest := (ih mid fun label hl => Nat.lt_of_lt_of_le (hknown label hl) hsize).and
      (does_lowerAll (fun _ => 0) lines mid items)
    refine hrest.imp (fun _ after h => ?_) fun _ hbad => hbad.cons hleaves hlowers hknown
    exact hleaves.cons h.1 h.2.1.labels hsize

end Layout

/-! ## Patching -/

/-- Patching a jump fails for want of a label only if its target has no place. -/
theorem Fixup.patch_error {fixup : Fixup} {labels : Labels} {lines : List String}
    {bytes : List UInt8} {report : Report LayoutError}
    (h : fixup.patch labels lines bytes = .error report) :
    (labels.offset? fixup.target = none ∧
      report = ⟨.unresolvedJump (labels.name fixup.target), some (sourceLine lines fixup.line)⟩) ∨
    report.kind ≠ .jump ∧ ∀ name, report.cause ≠ .duplicateLabel name := by
  unfold patch at h
  split at h
  next unplaced =>
    cases h
    exact .inl ⟨unplaced, rfl⟩
  next offset _ =>
    split at h
    · cases h
      exact .inr ⟨fun hno => (by cases hno), fun name hno => (by cases hno)⟩
    · split at h <;> cases h
      exact .inr ⟨fun hno => (by cases hno), fun name hno => (by cases hno)⟩

/-- Patching fails for want of a label only if the target of a recorded jump has no place. -/
theorem patchAll_error {labels : Labels} {lines : List String} {fixups : List Fixup}
    {bytes : List UInt8} {report : Report LayoutError}
    (h : (patchAll labels lines fixups bytes).1 = .error report) :
    (∃ fixup ∈ fixups, labels.offset? fixup.target = none ∧
      report = ⟨.unresolvedJump (labels.name fixup.target), some (sourceLine lines fixup.line)⟩) ∨
    report.kind ≠ .jump ∧ ∀ name, report.cause ≠ .duplicateLabel name := by
  induction fixups generalizing bytes with
  | nil => cases h
  | cons fixup fixups ih =>
    rw [patchAll] at h
    cases hpatch : fixup.patch labels lines bytes with
    | error other =>
      rw [hpatch] at h
      cases h
      exact (Fixup.patch_error hpatch).imp_left fun hmissing => ⟨fixup, by simp, hmissing⟩
    | ok patched =>
      rw [hpatch] at h
      refine (ih h).imp_left ?_
      rintro ⟨other, hmem, hmissing⟩
      exact ⟨other, List.mem_cons_of_mem _ hmem, hmissing⟩

end ByteBasic
