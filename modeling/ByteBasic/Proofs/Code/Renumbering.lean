import ByteBasic.Proofs.Code.Patching

/-!
# Line numbers in the code laid out

Every jump and label remembers the number of the line it comes from, which only serves to blame a
fault on that line. Under a change `f` of line numbers, `Layout.Carries f` says of two parts of laying
out that line numbers are all that they differ in: the second leads from the renumbered layout to the
renumbered one, or fails for the same cause. The source that faults are quoted from may be another
one.

**Theorem (`carries_lowerAll`, `patchAll_renumber`).** Renumbered items give the renumbered layout, and
renumbered fixups patch the same bytes.
-/

namespace ByteBasic

variable {α β : Type} (f : Nat → Nat)

/-! ## Renumbering -/

/-- The item as if it came from another line. -/
def Item.renumber : Item → Item
  | .label id line => .label id (f line)
  | .instruction i => .instruction i
  | .jump test register target line => .jump test register target (f line)
  | .goto target line => .goto target (f line)
  | .compare comparison register accept reject line =>
    .compare comparison register accept reject (f line)
  | .call main line => .call main (f line)
  | .ret => .ret
  | .halt => .halt

theorem Item.size_renumber (item : Item) : (item.renumber f).size = item.size := by
  cases item <;> rfl

def Fixup.renumber (fixup : Fixup) : Fixup :=
  { fixup with line := f fixup.line }

def Layout.renumber (layout : Layout) : Layout :=
  { layout with fixups := layout.fixups.map (Fixup.renumber f) }

/-! ## Blame -/

/-- Two results that are the same but for the lines that their reports are blamed on. -/
inductive SameCause {φ : Type} : Except (Report φ) α → Except (Report φ) α → Prop
  | ok (value : α) : SameCause (.ok value) (.ok value)
  | error {report report' : Report φ} (cause : report'.cause = report.cause) :
      SameCause (.error report) (.error report')

namespace SameCause

variable {φ : Type}

theorem symm {result result' : Except (Report φ) α} (h : SameCause result result') :
    SameCause result' result := by
  cases h with
  | ok a => exact .ok a
  | error cause => exact .error cause.symm

theorem trans {a b c : Except (Report φ) α} (hab : SameCause a b) (hbc : SameCause b c) :
    SameCause a c := by
  cases hab with
  | ok a => exact hbc
  | error cause =>
    cases hbc with
    | error cause' => exact .error (cause'.trans cause)

theorem bind {first first' : Except (Report φ) α} {next next' : α → Except (Report φ) β}
    (h : SameCause first first') (hnext : ∀ a, SameCause (next a) (next' a)) :
    SameCause (first >>= next) (first' >>= next') := by
  cases h with
  | ok a => exact hnext a
  | error cause => exact .error cause

end SameCause

theorem sameCause_orLine {φ : Type} [Cause φ] (cause : φ) (line line' : SourceLine) :
    SameCause (.error ((Report.ofCause cause).orLine line) : Except (Report φ) α)
      (.error ((Report.ofCause cause).orLine line')) :=
  .error (by rw [Report.cause_orLine, Report.cause_orLine])

/-! ## Parts of laying out -/

namespace Layout

/-- Two outcomes of laying out that differ in line numbers only. -/
inductive Renumbered : EStateM.Result (Report LayoutError) Layout α →
    EStateM.Result (Report LayoutError) Layout α → Prop
  | ok (value : α) (layout : Layout) : Renumbered (.ok value layout) (.ok value (layout.renumber f))
  | error {report report' : Report LayoutError} (layout layout' : Layout)
      (cause : report'.cause = report.cause) : Renumbered (.error report layout) (.error report' layout')

/-- From the renumbered layout, the second part does what the first does but for line numbers. -/
def Carries (part part' : LayoutM α) : Prop :=
  ∀ layout, Renumbered f (part layout) (part' (layout.renumber f))

variable {f}

theorem Carries.bind {part part' : LayoutM α} {next next' : α → LayoutM β} (h : Carries f part part')
    (hnext : ∀ a, Carries f (next a) (next' a)) : Carries f (part >>= next) (part' >>= next') := by
  intro layout
  have hpart := h layout
  simp only [Bind.bind, EStateM.bind]
  generalize part layout = outcome, part' (layout.renumber f) = outcome' at hpart
  cases hpart with
  | ok value reached => exact hnext value reached
  | error reached reached' cause => exact .error reached reached' cause

theorem Carries.get {next next' : Layout → LayoutM α}
    (h : ∀ layout, Carries f (next layout) (next' (layout.renumber f))) :
    Carries f (get >>= next) (get >>= next') :=
  fun layout => h layout layout

theorem Carries.pure (value : α) : Carries f (pure value) (pure value) :=
  fun layout => .ok value layout

theorem Carries.set {layout layout' : Layout} (h : layout' = layout.renumber f) :
    Carries f (set layout) (set layout') := by
  subst h
  exact fun _ => .ok () layout

theorem Carries.modify {change change' : Layout → Layout}
    (h : ∀ layout, change' (layout.renumber f) = (change layout).renumber f) :
    Carries f (modify change) (modify change') := by
  intro layout
  have hok := Renumbered.ok (f := f) () (change layout)
  rw [← h] at hok
  exact hok

theorem Carries.forM {items : List α} {part part' : α → LayoutM PUnit}
    (h : ∀ item, Carries f (part item) (part' item)) :
    Carries f (items.forM part) (items.forM part') := by
  induction items with
  | nil => exact .pure _
  | cons item items ih => exact (h item).bind fun _ => ih

variable (lines lines' : List String)

theorem carries_failAt (line line' : Nat) (error : LayoutError) :
    Carries f (failAt lines line error : LayoutM α) (failAt lines' line' error) := by
  refine fun layout => .error layout _ ?_
  rw [Report.cause_orLine, Report.cause_orLine]

theorem carries_append (instruction : Instruction) :
    Carries f (append instruction) (append instruction) := by
  unfold append
  split
  · exact .modify fun _ => rfl
  · exact fun layout => .error layout _ rfl

theorem carries_place (label : LabelId) (line : Nat) :
    Carries f (place lines label line) (place lines' label (f line)) := by
  refine .get fun layout => ?_
  have hlabels : (layout.renumber f).labels.define label (layout.renumber f).bytes.length =
    layout.labels.define label layout.bytes.length := rfl
  rw [hlabels]
  rcases layout.labels.define label layout.bytes.length with ⟨_ | _, labels⟩
  · exact carries_failAt lines lines' _ _ _
  · exact .set rfl

theorem carries_jump (test : JumpTest) (register : UInt8) (target : LabelId) (line : Nat) :
    Carries f (jump test register target line) (jump test register target (f line)) := by
  refine .bind (.modify fun layout => ?_) fun _ => carries_append _
  simp [renumber, Fixup.renumber]

theorem carries_joinLabel : Carries f joinLabel joinLabel :=
  .get fun _ => .bind (.set rfl) fun _ => .pure _

theorem carries_jumpOtherwise (target : Target) (line : Nat) :
    Carries f (jumpOtherwise target line) (jumpOtherwise target (f line)) := by
  cases target with
  | label label => exact carries_jump _ _ _ _
  | next => exact .pure _

theorem carries_compare (comparison : Comparison) (register : UInt8) (accept reject : Target)
    (line : Nat) : Carries f (compare lines comparison register accept reject line)
      (compare lines' comparison register accept reject (f line)) := by
  unfold compare
  cases comparison.verdict.pick accept reject with
  | label label =>
    exact (Carries.forM fun _ => carries_jump _ _ _ _).bind fun _ => carries_jumpOtherwise _ _
  | next =>
    exact carries_joinLabel.bind fun join => (Carries.forM fun _ => carries_jump _ _ _ _).bind fun _ =>
      (carries_jumpOtherwise _ _).bind fun _ => carries_place lines lines' _ _

theorem carries_call (main : LabelId) (line : Nat) :
    Carries f (call lines main line) (call lines' main (f line)) := by
  refine .get fun layout => ?_
  have hback : (layout.renumber f).bytes.length = layout.bytes.length := rfl
  dsimp only
  rw [hback]
  have hpush : Carries f
      (do
        append (.load 0 (UInt8.ofNat (layout.bytes.length + 6)))
        append (.move (.general 0) (.special .stack))
        jump .equal 0 main line)
      (do
        append (.load 0 (UInt8.ofNat (layout.bytes.length + 6)))
        append (.move (.general 0) (.special .stack))
        jump .equal 0 main (f line)) :=
    (carries_append _).bind fun _ => (carries_append _).bind fun _ => carries_jump _ _ _ _
  split
  · exact (carries_failAt lines lines' _ _ _).bind fun _ => hpush
  · exact hpush

theorem carries_lower (item : Item) :
    Carries f (lower lines item) (lower lines' (item.renumber f)) := by
  cases item with
  | label label line => exact carries_place lines lines' label line
  | instruction instruction => exact carries_append _
  | jump test register target line => exact carries_jump _ _ _ _
  | goto target line => exact carries_jump _ _ _ _
  | compare comparison register accept reject line =>
    exact carries_compare lines lines' comparison register accept reject line
  | call main line => exact carries_call lines lines' main line
  | ret => exact carries_append (.move (.special .stack) (.special .programCounter))
  | halt => exact carries_append .halt

theorem carries_lowerAll (items : List Item) :
    Carries f (lowerAll lines items) (lowerAll lines' (items.map (Item.renumber f))) := by
  induction items with
  | nil => exact .pure _
  | cons item items ih => exact (carries_lower lines lines' item).bind fun _ => ih

end Layout

/-! ## Patching -/

variable {f}

/-- The renumbered fixup patches the same byte, or fails for the same cause. -/
theorem Fixup.patch_renumber (fixup : Fixup) (labels : Labels) (lines lines' : List String)
    (bytes : List UInt8) :
    SameCause (fixup.patch labels lines bytes) ((fixup.renumber f).patch labels lines' bytes) := by
  unfold patch renumber
  dsimp only
  split
  · exact sameCause_orLine _ _ _
  · split
    · exact sameCause_orLine _ _ _
    · split
      · exact .ok _
      · exact .error rfl

/-- Renumbered fixups patch the same bytes, up to a failure for the same cause. -/
theorem patchAll_renumber (fixups : List Fixup) (labels : Labels) (lines lines' : List String)
    (bytes : List UInt8) :
    SameCause (patchAll labels lines fixups bytes).1
        (patchAll labels lines' (fixups.map (Fixup.renumber f)) bytes).1 ∧
      (patchAll labels lines' (fixups.map (Fixup.renumber f)) bytes).2 =
        (patchAll labels lines fixups bytes).2 := by
  induction fixups generalizing bytes with
  | nil => exact ⟨.ok (), rfl⟩
  | cons fixup fixups ih =>
    have hpatch := fixup.patch_renumber (f := f) labels lines lines' bytes
    rw [List.map_cons, patchAll, patchAll]
    generalize fixup.patch labels lines bytes = first,
      (fixup.renumber f).patch labels lines' bytes = first' at hpatch
    cases hpatch with
    | error cause => exact ⟨.error cause, rfl⟩
    | ok patched => exact ih patched

end ByteBasic
