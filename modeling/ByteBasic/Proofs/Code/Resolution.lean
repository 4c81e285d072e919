import ByteBasic.Proofs.Code.Filling
import ByteBasic.Proofs.Code.Stepping

/-!
# When code can be laid out

Laying out and patching fail for five reasons only: a register that does not exist, a label that is
placed twice, a jump to a label that is nowhere placed or not in reach, a comparison that has to jump
to its own end where that is not in reach, and a call that has to come back to where it cannot. Code
without these faults is `Assemblable`.

**Theorem (`patched_iff_assemblable`).** Items are laid out and patched without a failure exactly if
they are assemblable. The bytes are then those of the direct assembler, with each label at the offset
of the item that places it. Patching changes the operand byte of each recorded jump, each once, and no
other byte.

`Layout.Lowers` is all that laying out an item does besides appending its code, and its failure means
that the item was not `Possible`. What a list of items needs is put together from that
(`Layout.lowersAll`).
-/

namespace ByteBasic

/-! ## Labels of items -/

/-- The labels that an item places. -/
def Item.placed : Item → List LabelId
  | .label id _ => [id]
  | _ => []

/-- The labels that an item jumps to. -/
def Item.targets : Item → List LabelId
  | .label _ _ => []
  | item => item.labels

/-- Whether an item jumps to its own end. -/
def Item.Joins : Item → Prop
  | .compare comparison _ accept reject _ => comparison.verdict.pick accept reject = .next
  | _ => False

/-- The labels that items place, in order. -/
def placedLabels (items : List Item) : List LabelId :=
  items.flatMap Item.placed

/-- The offset of the item that places a label. -/
def labelPlace (items : List Item) (label : LabelId) : Nat :=
  ((labelIndex? items label).map (itemOffset items)).getD 0

theorem Item.mem_placed {item : Item} {label : LabelId} :
    label ∈ item.placed ↔ ∃ line, item = .label label line := by
  cases item <;> simp [Item.placed, eq_comm]

theorem mem_placedLabels {items : List Item} {label : LabelId} :
    label ∈ placedLabels items ↔
      ∃ (index line : Nat), items[index]? = some (.label label line) := by
  unfold placedLabels
  rw [List.mem_flatMap]
  constructor
  · rintro ⟨item, hitem, hlabel⟩
    obtain ⟨line, rfl⟩ := Item.mem_placed.1 hlabel
    obtain ⟨index, hlt, hindex⟩ := List.getElem_of_mem hitem
    exact ⟨index, line, by rw [List.getElem?_eq_getElem hlt, hindex]⟩
  · rintro ⟨index, line, hitem⟩
    exact ⟨_, List.mem_of_getElem? hitem, Item.mem_placed.2 ⟨line, rfl⟩⟩

theorem placedLabels_cons (item : Item) (items : List Item) :
    placedLabels (item :: items) = item.placed ++ placedLabels items := rfl

namespace Labels

theorem offset?_define_of_ne (labels : Labels) {id other : LabelId} (offset : Nat)
    (h : other ≠ id) : (labels.define id offset).2.offset? other = labels.offset? other := by
  unfold define
  split
  · rfl
  · simp [offset?, Ne.symm h]

theorem offset?_fresh_of_lt (labels : Labels) (name : String) {id : LabelId}
    (h : id < labels.size) : (labels.fresh name).2.offset? id = labels.offset? id := by
  have hlt : id < labels.entries.length := h
  simp [fresh, add, offset?, List.getElem?_append_left hlt]

theorem offset?_fresh_self (labels : Labels) (name : String) :
    (labels.fresh name).2.offset? labels.size = none := by
  simp [fresh, add, offset?, size]

/-- A new label is where it is then placed. -/
theorem offset?_define_fresh (labels : Labels) (name : String) (offset : Nat) :
    ((labels.fresh name).2.define labels.size offset).2.offset? labels.size = some offset := by
  refine offset?_define_self _ _ ?_ (offset?_fresh_self labels name)
  simp [fresh, add, size]

end Labels

namespace Layout

/-! ## Recorded jumps -/

/-- A part of laying out appends bytes and records jumps to these targets in the bytes that it
appends, from the first to the last. -/
def Records (targets : List LabelId) (before after : Layout) : Prop :=
  before.bytes.length ≤ after.bytes.length ∧
    ∃ fixups, after.fixups = before.fixups ++ fixups ∧ fixups.map Fixup.target = targets ∧
      (fixups.map Fixup.offset).Pairwise (· < ·) ∧
      ∀ fixup ∈ fixups, before.bytes.length ≤ fixup.offset ∧ fixup.offset < after.bytes.length

theorem Records.silent {before after : Layout} (hbytes : after.bytes = before.bytes)
    (hfixups : after.fixups = before.fixups) : Records [] before after := by
  refine ⟨Nat.le_of_eq (by rw [hbytes]), [], ?_, rfl, .nil, fun fixup h => by cases h⟩
  rw [hfixups, List.append_nil]

theorem Records.trans {targets later : List LabelId} {a b c : Layout} (h₁ : Records targets a b)
    (h₂ : Records later b c) : Records (targets ++ later) a c := by
  obtain ⟨hab, first, hfirst, rfl, hsorted₁, hin₁⟩ := h₁
  obtain ⟨hbc, second, hsecond, rfl, hsorted₂, hin₂⟩ := h₂
  refine ⟨Nat.le_trans hab hbc, first ++ second, ?_, List.map_append, ?_, ?_⟩
  · rw [hsecond, hfirst, List.append_assoc]
  · rw [List.map_append, List.pairwise_append]
    refine ⟨hsorted₁, hsorted₂, fun x hx y hy => ?_⟩
    obtain ⟨f, hf, rfl⟩ := List.mem_map.1 hx
    obtain ⟨g, hg, rfl⟩ := List.mem_map.1 hy
    exact Nat.lt_of_lt_of_le (hin₁ f hf).2 (hin₂ g hg).1
  · intro f hf
    rcases List.mem_append.1 hf with hf | hf
    · exact ⟨(hin₁ f hf).1, Nat.lt_of_lt_of_le (hin₁ f hf).2 hbc⟩
    · exact ⟨Nat.le_trans hab (hin₂ f hf).1, (hin₂ f hf).2⟩

/-- A part of laying out that leaves the labels alone. -/
structure Jumps (targets : List LabelId) (before after : Layout) : Prop where
  labels : after.labels = before.labels
  records : Records targets before after

theorem Jumps.trans {targets later : List LabelId} {a b c : Layout} (h₁ : Jumps targets a b)
    (h₂ : Jumps later b c) : Jumps (targets ++ later) a c :=
  ⟨h₂.labels.trans h₁.labels, h₁.records.trans h₂.records⟩

theorem Jumps.refl (layout : Layout) : Jumps [] layout layout :=
  ⟨rfl, .silent rfl rfl⟩

theorem Does.and {α : Type} {part : LayoutM α} {before : Layout} {ok ok' : α → Layout → Prop}
    {bad bad' : Report LayoutError → Prop} (h : Does part before ok bad)
    (h' : Does part before ok' bad') :
    Does part before (fun a after => ok a after ∧ ok' a after) bad := by
  unfold Does at *
  cases hpart : part before with
  | ok a after =>
    rw [hpart] at h h'
    exact ⟨h, h'⟩
  | error report after =>
    rw [hpart] at h
    exact h

variable (lines : List String) (layout : Layout)

theorem jumps_append (instruction : Instruction) :
    Does (append instruction) layout
      (fun _ after => instruction.Fits ∧ Jumps [] layout after) fun _ => ¬ instruction.Fits := by
  refine .of_append (fun hfits => ⟨hfits, rfl, ?_, [], (List.append_nil _).symm, rfl, .nil, ?_⟩)
    fun _ h => h
  · exact Nat.le_trans (Nat.le_add_right _ _) (Nat.le_of_eq List.length_append.symm)
  · exact fun f hf => by cases hf

theorem jumps_jump (test : JumpTest) (register : UInt8) (target : LabelId) (line : Nat) :
    Does (jump test register target line) layout
      (fun _ after => register.toNat < 16 ∧ Jumps [target] layout after)
      fun _ => ¬ register.toNat < 16 := by
  have hgrows : layout.bytes.length <
      (layout.bytes ++ bytesOfWord (Instruction.jump test register 0).word).length := by
    rw [List.length_append]
    exact Nat.lt_add_of_pos_right (Nat.succ_pos 1)
  refine .of_jump (fun hlt => ⟨hlt, rfl, Nat.le_of_lt hgrows,
    [⟨layout.bytes.length, target, line⟩], rfl, rfl, List.pairwise_singleton .., fun f hf => ?_⟩)
    fun _ h => h
  rw [List.mem_singleton.1 hf]
  exact ⟨Nat.le_refl _, hgrows⟩

theorem jumps_jumpAll (tests : List JumpTest) (register : UInt8) (target : LabelId) (line : Nat) :
    Does (jumpAll tests register target line) layout
      (fun _ after => (tests ≠ [] → register.toNat < 16) ∧
        Jumps (tests.map fun _ => target) layout after)
      fun _ => ¬ register.toNat < 16 := by
  induction tests generalizing layout with
  | nil => exact ⟨fun h => absurd rfl h, .refl layout⟩
  | cons test tests ih =>
    refine Does.bind (jumps_jump layout test register target line) fun _ mid hmid => ?_
    exact (ih mid).imp (fun _ _ h => ⟨fun _ => hmid.1, hmid.2.trans h.2⟩) fun _ h => h

theorem jumps_jumpOtherwise (target : Target) (line : Nat) :
    Does (jumpOtherwise target line) layout
      (fun _ after => Jumps target.labels layout after) fun _ => False := by
  cases target with
  | label id =>
    exact (jumps_jump layout .equal 0 id line).imp (fun _ _ h => h.2) fun _ h => h (by decide)
  | next => exact Jumps.refl layout

/-! ## Placed labels -/

theorem places_place (label : LabelId) (line : Nat) :
    Does (Layout.place lines label line) layout
      (fun _ after => layout.labels.offset? label = none ∧
        after = { layout with labels := (layout.labels.define label layout.bytes.length).2 })
      fun report => layout.labels.offset? label ≠ none ∧
        report = ⟨.duplicateLabel (layout.labels.name label), some (sourceLine lines line)⟩ := by
  unfold Does
  cases hfree : layout.labels.offset? label with
  | some existing =>
    rw [place_of_placed hfree]
    exact ⟨fun h => (by cases h), Report.orLine_ofCause (fun h => by cases h) _⟩
  | none =>
    rw [place_of_free hfree]
    exact ⟨rfl, rfl⟩

/-- Placing a label that is new, with only jumps since. -/
theorem places_fresh {last : Layout} {name : String}
    (hlabels : last.labels = (layout.labels.fresh name).2) (line : Nat) :
    Does (Layout.place lines layout.labels.size line) last
      (fun _ after => after = { last with
        labels := ((layout.labels.fresh name).2.define layout.labels.size last.bytes.length).2 })
      fun _ => False := by
  have hfree := Labels.offset?_fresh_self layout.labels name
  rw [← hlabels] at hfree ⊢
  exact (places_place lines last layout.labels.size line).imp (fun _ _ h => h.2)
    fun _ h => h.1 hfree

theorem places_joinLabel :
    Does joinLabel layout
      (fun join after => join = layout.labels.size ∧ ∃ name,
        after = { layout with labels := (layout.labels.fresh name).2 })
      fun _ => False :=
  ⟨rfl, _, rfl⟩

/-! ## Items -/

/-- Nothing stands in the way of laying out an item. -/
structure Possible (item : Item) (layout : Layout) : Prop where
  fits : item.Fits
  free : ∀ label ∈ item.placed, layout.labels.offset? label = none
  back : ∀ main line, item = .call main line → layout.bytes.length + item.size ≤ 255

/-- What laying out an item does besides appending its code. -/
structure Lowers (item : Item) (before after : Layout) : Prop where
  possible : Possible item before
  others : ∀ label < before.labels.size, label ∉ item.placed →
    after.labels.offset? label = before.labels.offset? label
  records : ∃ targets, Records targets before after ∧ (∀ target ∈ item.targets, target ∈ targets) ∧
    (item.Joins → ∃ join ∈ targets, after.labels.offset? join = some after.bytes.length) ∧
    ∀ target ∈ targets, target ∈ item.targets ∨
      item.Joins ∧ after.labels.offset? target = some after.bytes.length

theorem Jumps.lowers {item : Item} {before after : Layout} {targets : List LabelId}
    (h : Jumps targets before after) (hpossible : Possible item before) (hjoins : ¬ item.Joins)
    (htargets : ∀ target, target ∈ targets ↔ target ∈ item.targets) : Lowers item before after where
  possible := hpossible
  others label _ _ := by rw [h.labels]
  records := ⟨targets, h.records, fun target ht => (htargets target).2 ht,
    fun hj => absurd hj hjoins, fun target ht => .inl ((htargets target).1 ht)⟩

/-- An item that also jumps to a new label of its own, which is placed where its code ends. -/
theorem Jumps.lowers_join {item : Item} {before last : Layout} {targets : List LabelId}
    {name : String} (h : Jumps targets { before with labels := (before.labels.fresh name).2 } last)
    (hpossible : Possible item before) (hjoins : item.Joins)
    (htargets : ∀ target, target ∈ targets ↔ target = before.labels.size ∨ target ∈ item.targets) :
    Lowers item before { last with
      labels := ((before.labels.fresh name).2.define before.labels.size last.bytes.length).2 } where
  possible := hpossible
  others label hlabel _ := by
    rw [Labels.offset?_define_of_ne _ _ (Nat.ne_of_lt hlabel), Labels.offset?_fresh_of_lt _ _ hlabel]
  records := by
    have hplaced := Labels.offset?_define_fresh before.labels name last.bytes.length
    refine ⟨targets, h.records, fun target ht => (htargets target).2 (.inr ht), fun _ => ?_,
      fun target ht => ?_⟩
    · exact ⟨before.labels.size, (htargets _).2 (.inl rfl), hplaced⟩
    · rcases (htargets target).1 ht with rfl | ht
      · exact .inr ⟨hjoins, hplaced⟩
      · exact .inl ht

theorem possible_of_fits {item : Item} {layout : Layout} (hfits : item.Fits)
    (hplaced : item.placed = []) (hcall : ∀ main line, item ≠ .call main line) :
    Possible item layout where
  fits := hfits
  free label h := by
    rw [hplaced] at h
    cases h
  back main line h := absurd h (hcall main line)

theorem lowers_label (label : LabelId) (line : Nat) :
    Does (lower lines (.label label line)) layout
      (fun _ after => Lowers (.label label line) layout after)
      fun _ => ¬ Possible (.label label line) layout := by
  refine (places_place lines layout label line).imp ?_ fun _ h hpossible => ?_
  · rintro _ _ ⟨hfree, rfl⟩
    refine ⟨⟨trivial, fun other h => ?_, fun _ _ h => by cases h⟩, fun other _ hother => ?_,
      [], .silent rfl rfl, ?_, ?_, ?_⟩
    · rw [List.mem_singleton.1 h]
      exact hfree
    · refine Labels.offset?_define_of_ne _ _ fun heq => hother ?_
      rw [heq]
      exact List.mem_singleton_self label
    · exact fun _ h => by cases h
    · exact fun h => h.elim
    · exact fun _ h => by cases h
  · exact h.1 (hpossible.free label (List.mem_singleton_self label))

theorem mem_targets_compare (comparison : Comparison) (register : UInt8) (accept reject : Target)
    (line : Nat) (target : LabelId) :
    target ∈ (Item.compare comparison register accept reject line).targets ↔
      target ∈ (comparison.verdict.pick accept reject).labels ∨
        target ∈ (comparison.verdict.opposite.pick accept reject).labels := by
  have hlabels : (Item.compare comparison register accept reject line).targets =
      accept.labels ++ reject.labels := rfl
  rw [hlabels, List.mem_append]
  cases comparison.verdict with
  | accept => exact Iff.rfl
  | reject => exact or_comm

/-- All the tests of a comparison go to one target, and each comparison makes a test. -/
theorem mem_map_tests_append (comparison : Comparison) (target taken : LabelId)
    (others : List LabelId) :
    target ∈ (comparison.tests.map fun _ => taken) ++ others ↔ target = taken ∨ target ∈ others := by
  rw [List.mem_append, List.mem_map]
  refine or_congr ⟨?_, ?_⟩ Iff.rfl
  · rintro ⟨_, -, rfl⟩
    rfl
  · rintro rfl
    exact List.mem_map.1 (mem_map_tests comparison target)

theorem lowers_compare (comparison : Comparison) (register : UInt8) (accept reject : Target)
    (line : Nat) :
    Does (compare lines comparison register accept reject line) layout
      (fun _ after => Lowers (.compare comparison register accept reject line) layout after)
      fun _ => ¬ Possible (.compare comparison register accept reject line) layout := by
  have htests : comparison.tests ≠ [] := by cases comparison <;> exact fun h => by cases h
  have hpossible : register.toNat < 16 →
      Possible (.compare comparison register accept reject line) layout :=
    fun hfits => possible_of_fits hfits rfl fun _ _ h => by cases h
  have htargets := mem_targets_compare comparison register accept reject line
  unfold compare
  generalize hotherwise : comparison.verdict.opposite.pick accept reject = otherwise at htargets
  cases htaken : comparison.verdict.pick accept reject with
  | label id =>
    rw [htaken] at htargets
    refine Does.bind ((jumps_jumpAll layout comparison.tests register id line).imp
      (fun _ _ h => h) fun _ h hp => h hp.fits) fun _ mid hmid => ?_
    refine (jumps_jumpOtherwise mid otherwise line).imp (fun _ after hjump => ?_)
      fun _ h => h.elim
    refine (hmid.2.trans hjump).lowers (hpossible (hmid.1 htests)) ?_ fun target => ?_
    · intro hjoins
      rw [Item.Joins, htaken] at hjoins
      cases hjoins
    · rw [htargets, mem_map_tests_append, Target.labels, List.mem_singleton]
  | next =>
    rw [htaken] at htargets
    refine Does.bind ((places_joinLabel layout).imp (fun _ _ h => h) fun _ h => h.elim)
      fun join start hjoin => ?_
    obtain ⟨rfl, name, rfl⟩ := hjoin
    refine Does.bind ((jumps_jumpAll _ comparison.tests register layout.labels.size line).imp
      (fun _ _ h => h) fun _ h hp => h hp.fits) fun _ mid hmid => ?_
    refine Does.bind ((jumps_jumpOtherwise mid otherwise line).imp (fun _ _ h => h)
      fun _ h => h.elim) fun _ last hlast => ?_
    -- The label of the comparison is placed behind its jumps, where its code ends.
    have hjumps := hmid.2.trans hlast
    refine (places_fresh lines layout hjumps.labels line).imp (fun _ after hafter => ?_)
      fun _ h => h.elim
    rw [hafter]
    refine hjumps.lowers_join (hpossible (hmid.1 htests)) htaken fun target => ?_
    rw [htargets, mem_map_tests_append, Target.labels]
    simp

theorem lowers_call (main : LabelId) (line : Nat) :
    Does (call lines main line) layout (fun _ after => Lowers (.call main line) layout after)
      fun _ => ¬ Possible (.call main line) layout := by
  unfold call
  refine Does.get ?_
  by_cases hback : layout.bytes.length + 6 > 255
  · simp only [if_pos hback]
    intro hpossible
    exact Nat.not_lt_of_le (hpossible.back main line rfl) hback
  · simp only [if_neg hback]
    refine Does.bind ((jumps_append layout _).imp (fun _ _ h => h) fun _ h => ?_)
      fun _ loaded hload => ?_
    · simp [Instruction.Fits, Instruction.nibbles] at h
    refine Does.bind ((jumps_append loaded _).imp (fun _ _ h => h) fun _ h => ?_)
      fun _ pushed hpush => ?_
    · exact absurd (by decide) h
    refine (jumps_jump pushed .equal 0 main line).imp (fun _ after hjump => ?_) fun _ h => ?_
    · refine ((hload.2.trans hpush.2).trans hjump.2).lowers
        ⟨trivial, fun _ h => (by cases h), fun _ _ _ => Nat.le_of_not_lt hback⟩ id fun _ => Iff.rfl
    · exact absurd (by decide) h

/-- Laying out an item fails exactly if something stands in its way. -/
theorem lowers_lower (item : Item) :
    Does (lower lines item) layout (fun _ after => Lowers item layout after)
      fun _ => ¬ Possible item layout := by
  cases item with
  | label label line => exact lowers_label lines layout label line
  | instruction instruction =>
    refine (jumps_append layout instruction).imp (fun _ _ h => ?_) fun _ h hp => h hp.fits
    exact h.2.lowers (possible_of_fits h.1 rfl fun _ _ h => by cases h) id fun _ => Iff.rfl
  | jump test register target line =>
    refine (jumps_jump layout test register target line).imp (fun _ _ h => ?_)
      fun _ h hp => h hp.fits
    exact h.2.lowers (possible_of_fits h.1 rfl fun _ _ h => by cases h) id fun _ => Iff.rfl
  | goto target line =>
    refine (jumps_jump layout .equal 0 target line).imp (fun _ _ h => ?_)
      fun _ h => absurd (by decide) h
    exact h.2.lowers (possible_of_fits trivial rfl fun _ _ h => by cases h) id fun _ => Iff.rfl
  | compare comparison register accept reject line =>
    exact lowers_compare lines layout comparison register accept reject line
  | call main line => exact lowers_call lines layout main line
  | ret =>
    refine (jumps_append layout (.move (.special .stack) (.special .programCounter))).imp
      (fun _ _ h => ?_) fun _ h => absurd (by decide) h
    exact h.2.lowers (possible_of_fits trivial rfl fun _ _ h => by cases h) id fun _ => Iff.rfl
  | halt =>
    refine (jumps_append layout .halt).imp (fun _ _ h => ?_) fun _ h => absurd (by decide) h
    exact h.2.lowers (possible_of_fits trivial rfl fun _ _ h => by cases h) id fun _ => Iff.rfl

/-! ## Lists of items -/

/-- Nothing stands in the way of laying out items. -/
structure PossibleAll (items : List Item) (layout : Layout) : Prop where
  fits : ∀ item ∈ items, item.Fits
  free : ∀ label ∈ placedLabels items, layout.labels.offset? label = none
  once : (placedLabels items).Nodup
  back : ∀ index main line, items[index]? = some (.call main line) →
    layout.bytes.length + itemOffset items (index + 1) ≤ 255

/-- What laying out items does besides appending their code. -/
structure LowersAll (items : List Item) (before after : Layout) : Prop where
  possible : PossibleAll items before
  others : ∀ label < before.labels.size, label ∉ placedLabels items →
    after.labels.offset? label = before.labels.offset? label
  records : ∃ targets, Records targets before after ∧
    (∀ item ∈ items, ∀ target ∈ item.targets, target ∈ targets) ∧
    (∀ (index : Nat) item, items[index]? = some item → item.Joins → ∃ join ∈ targets,
      after.labels.offset? join = some (before.bytes.length + itemOffset items (index + 1))) ∧
    ∀ target ∈ targets, (∃ item ∈ items, target ∈ item.targets) ∨
      ∃ (index : Nat) (item : Item), items[index]? = some item ∧ item.Joins ∧
        after.labels.offset? target = some (before.bytes.length + itemOffset items (index + 1))

section Cons

variable {lines layout} {item : Item} {items : List Item} {mid after : Layout}

/-- What the first item leaves is what the others need. -/
theorem PossibleAll.tail (h : PossibleAll (item :: items) layout) (hmid : Lowers item layout mid)
    (hlength : mid.bytes.length = layout.bytes.length + item.size)
    (known : ∀ label ∈ placedLabels items, label < layout.labels.size) :
    PossibleAll items mid where
  fits other hother := h.fits other (List.mem_cons_of_mem _ hother)
  free label hlabel := by
    have hnew : label ∉ item.placed := fun hold =>
      (List.nodup_append.1 h.once).2.2 label hold label hlabel rfl
    rw [hmid.others label (known label hlabel) hnew]
    exact h.free label (List.mem_append_right _ hlabel)
  once := (List.nodup_append.1 h.once).2.1
  back index main line hitem := by
    rw [hlength, Nat.add_assoc, ← itemOffset_cons_succ]
    exact h.back (index + 1) main line hitem

theorem PossibleAll.cons (h : PossibleAll items mid) (hmid : Lowers item layout mid)
    (hlength : mid.bytes.length = layout.bytes.length + item.size)
    (hplaced : ∀ label ∈ item.placed, mid.labels.offset? label ≠ none)
    (known : ∀ label ∈ placedLabels items, label < layout.labels.size) :
    PossibleAll (item :: items) layout where
  fits := List.forall_mem_cons.2 ⟨hmid.possible.fits, h.fits⟩
  free label hlabel := by
    rcases List.mem_append.1 hlabel with hlabel | hlabel
    · exact hmid.possible.free label hlabel
    · have hnew : label ∉ item.placed := fun hold => hplaced label hold (h.free label hlabel)
      rw [← hmid.others label (known label hlabel) hnew]
      exact h.free label hlabel
  once := by
    refine List.nodup_append.2 ⟨?_, h.once, fun label hold other hnew heq => ?_⟩
    · cases item <;> simp [Item.placed]
    · rw [← heq] at hnew
      exact hplaced label hold (h.free label hnew)
  back index main line hitem := by
    cases index with
    | zero =>
      obtain rfl : item = .call main line := by simpa using hitem
      exact hmid.possible.back main line rfl
    | succ index =>
      rw [itemOffset_cons_succ, ← Nat.add_assoc, ← hlength]
      exact h.back index main line hitem

theorem LowersAll.cons (hmid : Lowers item layout mid) (h : LowersAll items mid after)
    (hlength : mid.bytes.length = layout.bytes.length + item.size)
    (hsize : layout.labels.size ≤ mid.labels.size) (hextends : mid.labels.Extends after.labels)
    (hplaced : ∀ label ∈ item.placed, mid.labels.offset? label ≠ none)
    (known : ∀ label ∈ placedLabels items, label < layout.labels.size) :
    LowersAll (item :: items) layout after where
  possible := h.possible.cons hmid hlength hplaced known
  others label hlabel hnew := by
    rw [placedLabels_cons, List.mem_append, not_or] at hnew
    rw [h.others label (Nat.lt_of_lt_of_le hlabel hsize) hnew.2, hmid.others label hlabel hnew.1]
  records := by
    obtain ⟨first, hfirst, htargets, hjoins, hfrom⟩ := hmid.records
    obtain ⟨later, hlater, htargets', hjoins', hfrom'⟩ := h.records
    -- The items behind the first one are further along by its size.
    have hoffset : ∀ index, mid.bytes.length + itemOffset items (index + 1) =
        layout.bytes.length + itemOffset (item :: items) (index + 1 + 1) := by
      intro index
      rw [itemOffset_cons_succ, hlength, Nat.add_assoc]
    have hzero : mid.bytes.length =
        layout.bytes.length + itemOffset (item :: items) (0 + 1) := by
      rw [itemOffset_cons_succ, hlength]
      rfl
    refine ⟨first ++ later, hfirst.trans hlater, ?_, ?_, ?_⟩
    · intro other hother target htarget
      rcases List.mem_cons.1 hother with rfl | hother
      · exact List.mem_append_left _ (htargets target htarget)
      · exact List.mem_append_right _ (htargets' other hother target htarget)
    · -- A comparison that jumps to its own end has a label there, and keeps it.
      intro index other hother hjoin
      cases index with
      | zero =>
        obtain rfl : item = other := by simpa using hother
        obtain ⟨join, hmem, hplace⟩ := hjoins hjoin
        refine ⟨join, List.mem_append_left _ hmem, ?_⟩
        rw [← hzero]
        exact hextends.offset join _ hplace
      | succ index =>
        obtain ⟨join, hmem, hplace⟩ := hjoins' index other hother hjoin
        exact ⟨join, List.mem_append_right _ hmem, by rw [← hoffset]; exact hplace⟩
    · -- Conversely, every jump is to a target of an item or to such a label.
      intro target htarget
      rcases List.mem_append.1 htarget with htarget | htarget
      · rcases hfrom target htarget with hitem | ⟨hjoin, hplace⟩
        · exact .inl ⟨item, List.mem_cons_self .., hitem⟩
        · refine .inr ⟨0, item, rfl, hjoin, ?_⟩
          rw [← hzero]
          exact hextends.offset target _ hplace
      · rcases hfrom' target htarget with ⟨other, hother, hmem⟩ | ⟨index, other, hother, hjoin, hplace⟩
        · exact .inl ⟨other, List.mem_cons_of_mem _ hother, hmem⟩
        · exact .inr ⟨index + 1, other, hother, hjoin, by rw [← hoffset]; exact hplace⟩

end Cons

/-- Laying out items fails exactly if something stands in the way of one of them. -/
theorem lowersAll (items : List Item)
    (known : ∀ label ∈ placedLabels items, label < layout.labels.size) :
    Does (lowerAll lines items) layout (fun _ after => LowersAll items layout after)
      fun _ => ¬ PossibleAll items layout := by
  induction items generalizing layout with
  | nil =>
    refine ⟨⟨fun _ h => (by cases h), fun _ h => (by cases h), List.nodup_nil,
      fun _ _ _ h => (by cases h)⟩, fun _ _ _ => rfl, [], .silent rfl rfl, ?_, ?_, ?_⟩
    · exact fun _ h => by cases h
    · exact fun _ _ h => by cases h
    · exact fun _ h => by cases h
  | cons item items ih =>
    rw [placedLabels_cons] at known
    have hfirst := (lowers_lower lines layout item).and (does_lower (fun _ => 0) lines layout item)
    refine Does.bind (hfirst.imp (fun _ _ h => h) fun _ h hp => h ?_) fun _ mid hmid => ?_
    · refine ⟨hp.fits item (List.mem_cons_self ..), fun label hlabel => ?_, fun main line heq => ?_⟩
      · exact hp.free label (List.mem_append_left _ hlabel)
      · subst heq
        exact hp.back 0 main line rfl
    obtain ⟨hlowers, hemits, hlabel⟩ := hmid
    have hlength : mid.bytes.length = layout.bytes.length + item.size := by
      rw [hemits.length, length_instructions]
      rfl
    have hsize := hemits.labels.size_le
    have hknown : ∀ label ∈ placedLabels items, label < layout.labels.size :=
      fun label hl => known label (List.mem_append_right _ hl)
    -- What the first item places is known and placed when the others come.
    have hplaced : ∀ label ∈ item.placed, mid.labels.offset? label ≠ none := by
      intro label hl
      obtain ⟨line, rfl⟩ := Item.mem_placed.1 hl
      rw [hlabel label line rfl (known label (List.mem_append_left _ hl))]
      exact fun h => by cases h
    have hrest := (ih mid fun label hl => Nat.lt_of_lt_of_le (hknown label hl) hsize).and
      (does_lowerAll (fun _ => 0) lines mid items)
    refine hrest.imp (fun _ after h => ?_) fun _ h hp => ?_
    · exact .cons hlowers h.1 hlength hsize h.2.1.labels hplaced hknown
    · exact h (hp.tail hlowers hlength hknown)

end Layout

/-! ## Assemblable code -/

/-- Items that can be laid out and patched. -/
structure Assemblable (items : List Item) : Prop where
  fits : ∀ item ∈ items, item.Fits
  once : (placedLabels items).Nodup
  reach : ∀ item ∈ items, ∀ target ∈ item.targets, ∃ (index line : Nat),
    items[index]? = some (.label target line) ∧ itemOffset items index ≤ 255
  join : ∀ (index : Nat) item, items[index]? = some item → item.Joins →
    itemOffset items (index + 1) ≤ 255
  back : ∀ (index : Nat) main line, items[index]? = some (.call main line) →
    itemOffset items (index + 1) ≤ 255

theorem Item.mem_labels_of_placed {item : Item} {label : LabelId} (h : label ∈ item.placed) :
    label ∈ item.labels := by
  cases item with
  | label id line => exact h
  | _ => cases h

theorem Item.mem_labels_of_targets {item : Item} {label : LabelId} (h : label ∈ item.targets) :
    label ∈ item.labels := by
  cases item with
  | label id line => cases h
  | _ => exact h

/-- Every label that the items mention is in the table. -/
def Labels.Cover (labels : Labels) (items : List Item) : Prop :=
  ∀ item ∈ items, ∀ label ∈ item.labels, label < labels.size

theorem Labels.Cover.placed {labels : Labels} {items : List Item} (h : labels.Cover items) :
    ∀ label ∈ placedLabels items, label < labels.size := by
  intro label hlabel
  obtain ⟨item, hitem, hplaced⟩ := List.mem_flatMap.1 hlabel
  exact h item hitem label (Item.mem_labels_of_placed hplaced)

/-- The layout of items over a table none of whose labels is placed yet. -/
structure Layout.Lowered (labels : Labels) (items : List Item) (layout : Layout) : Prop where
  lowers : LowersAll items (.empty labels) layout
  sound : layout.Sound
  placed : ∀ (index : Nat) label line, items[index]? = some (.label label line) →
    layout.labels.offset? label = some (itemOffset items index)

section Lowered

variable {labels : Labels} {items : List Item} {layout : Layout}

theorem Layout.does_lowered (lines : List String) (known : labels.Cover items) :
    Does (lowerAll lines items) (.empty labels) (fun _ after => Lowered labels items after)
      fun _ => ¬ PossibleAll items (.empty labels) := by
  have hboth := (lowersAll lines (.empty labels) items known.placed).and
    (does_lowerAll (fun _ => 0) lines (.empty labels) items)
  refine hboth.imp (fun _ after h => ?_) fun _ h => h
  obtain ⟨hlowers, hemits, hplaced⟩ := h
  refine ⟨hlowers, hemits.sound (sound_empty labels), fun index label line hitem => ?_⟩
  have hlt := known _ (List.mem_of_getElem? hitem) label (List.mem_singleton_self label)
  rw [hplaced index label line hitem hlt]
  exact congrArg some (Nat.zero_add _)

theorem Layout.lowered_of_run {lines : List String} (known : labels.Cover items)
    (h : (lowerAll lines items).run (.empty labels) = .ok () layout) :
    Lowered labels items layout := by
  have hdoes := does_lowered lines known
  unfold Does at hdoes
  rw [show lowerAll lines items (.empty labels) = .ok () layout from h] at hdoes
  exact hdoes

theorem Assemblable.possible (h : Assemblable items) (unplaced : ∀ id, labels.offset? id = none) :
    Layout.PossibleAll items (.empty labels) where
  fits := h.fits
  free label _ := unplaced label
  once := h.once
  back index main line hitem := by
    rw [show (Layout.empty labels).bytes.length = 0 from rfl, Nat.zero_add]
    exact h.back index main line hitem

namespace Layout.Lowered

/-- A label that was placed is where an item places it. -/
theorem exists_item (h : Lowered labels items layout) (unplaced : ∀ id, labels.offset? id = none)
    {label : LabelId} (hknown : label < labels.size) {offset : Nat}
    (hoffset : layout.labels.offset? label = some offset) :
    ∃ (index line : Nat),
      items[index]? = some (.label label line) ∧ itemOffset items index = offset := by
  by_cases hplaced : label ∈ placedLabels items
  · obtain ⟨index, line, hitem⟩ := mem_placedLabels.1 hplaced
    rw [h.placed index label line hitem] at hoffset
    exact ⟨index, line, hitem, Option.some.inj hoffset⟩
  · have hsame := h.lowers.others label hknown hplaced
    rw [hoffset, show (Layout.empty labels).labels.offset? label = none from unplaced label]
      at hsame
    cases hsame

/-- Every recorded jump has its target in reach exactly if the items are assemblable. -/
theorem reach_iff (h : Lowered labels items layout) (unplaced : ∀ id, labels.offset? id = none)
    (known : labels.Cover items) :
    (∀ fixup ∈ layout.fixups, ∃ offset ≤ 255, layout.labels.offset? fixup.target = some offset) ↔
      Assemblable items := by
  obtain ⟨targets, ⟨-, fixups, hfixups, rfl, -, -⟩, htargets, hjoins, hfrom⟩ := h.lowers.records
  have hzero : (Layout.empty labels).bytes.length = 0 := rfl
  rw [show (Layout.empty labels).fixups = [] from rfl, List.nil_append] at hfixups
  simp only [hzero, Nat.zero_add] at hjoins hfrom
  rw [hfixups]
  constructor
  · intro hreach
    have hreach' : ∀ target ∈ fixups.map Fixup.target, ∃ offset ≤ 255,
        layout.labels.offset? target = some offset := by
      intro target htarget
      obtain ⟨fixup, hmem, rfl⟩ := List.mem_map.1 htarget
      exact hreach fixup hmem
    refine ⟨h.lowers.possible.fits, h.lowers.possible.once, ?_, ?_, ?_⟩
    · intro item hitem target htarget
      obtain ⟨offset, hle, hoffset⟩ := hreach' target (htargets item hitem target htarget)
      have hknown := known item hitem target (Item.mem_labels_of_targets htarget)
      obtain ⟨index, line, hlabel, rfl⟩ := h.exists_item unplaced hknown hoffset
      exact ⟨index, line, hlabel, hle⟩
    · intro index item hitem hjoin
      -- A comparison that jumps to its own end has recorded such a jump.
      obtain ⟨join, hmem, hplace⟩ := hjoins index item hitem hjoin
      obtain ⟨offset, hle, hoffset⟩ := hreach' join hmem
      rw [hplace] at hoffset
      exact Option.some.inj hoffset ▸ hle
    · intro index main line hitem
      have hback := h.lowers.possible.back index main line hitem
      rwa [hzero, Nat.zero_add] at hback
  · intro hassemblable fixup hmem
    rcases hfrom fixup.target (List.mem_map_of_mem hmem) with
      ⟨item, hitem, htarget⟩ | ⟨index, item, hitem, hjoin, hplace⟩
    · obtain ⟨index, line, hlabel, hle⟩ := hassemblable.reach item hitem _ htarget
      exact ⟨_, hle, h.placed index _ line hlabel⟩
    · exact ⟨_, hassemblable.join index item hitem hjoin, hplace⟩

/-- Every target is at the place of its label. -/
theorem places_eq (h : Lowered labels items layout) (hassemblable : Assemblable items)
    {item : Item} (hitem : item ∈ items) {target : LabelId} (htarget : target ∈ item.targets) :
    layout.labels.places target = labelPlace items target := by
  obtain ⟨index, line, hlabel, -⟩ := hassemblable.reach item hitem target htarget
  obtain ⟨first, -, hfirst⟩ := labelIndex?_le hlabel
  obtain ⟨line', hlabel'⟩ := getElem?_of_labelIndex? hfirst
  rw [Labels.places, h.placed first target line' hlabel', labelPlace, hfirst]
  rfl

theorem nodup_offsets (h : Lowered labels items layout) :
    (layout.fixups.map Fixup.offset).Nodup := by
  obtain ⟨_, ⟨-, fixups, hfixups, -, hsorted, -⟩, -⟩ := h.lowers.records
  rw [show (Layout.empty labels).fixups = [] from rfl, List.nil_append] at hfixups
  rw [hfixups]
  exact hsorted.imp Nat.ne_of_lt

end Layout.Lowered

end Lowered

/-! ## The direct assembler and the places of labels -/

theorem Item.instructions_congr {place place' : LabelId → Nat} {item : Item} (offset : Nat)
    (h : ∀ target ∈ item.targets, place target = place' target) :
    item.instructions place offset = item.instructions place' offset := by
  cases item with
  | jump test register target line => simp [instructions, h target (List.mem_singleton_self _)]
  | goto target line => simp [instructions, h target (List.mem_singleton_self _)]
  | call main line => simp [instructions, h main (List.mem_singleton_self _)]
  | compare comparison register accept reject line =>
    have htargets := Layout.mem_targets_compare comparison register accept reject line
    simp only [instructions]
    congr 1
    · cases htaken : comparison.verdict.pick accept reject with
      | next => rfl
      | label id =>
        rw [htaken] at htargets
        simp only [Target.offset, h id ((htargets id).2 (.inl (List.mem_singleton_self id)))]
    · cases hother : comparison.verdict.opposite.pick accept reject with
      | next => rfl
      | label id =>
        rw [hother] at htargets
        simp only [Target.jumpOtherwise, h id ((htargets id).2 (.inr (List.mem_singleton_self id)))]
  | _ => rfl

/-- The code depends only on the places of the labels that are jumped to. -/
theorem assembleFrom_congr {place place' : LabelId → Nat} {items : List Item} (offset : Nat)
    (h : ∀ item ∈ items, ∀ target ∈ item.targets, place target = place' target) :
    assembleFrom place offset items = assembleFrom place' offset items := by
  induction items generalizing offset with
  | nil => rfl
  | cons item items ih =>
    rw [assembleFrom, assembleFrom, Item.instructions_congr offset (h item (List.mem_cons_self ..)),
      ih _ fun other hother => h other (List.mem_cons_of_mem _ hother)]

/-! ## Patching -/

section Patching

variable {labels : Labels} {lines : List String}

/-- Patching succeeds exactly if every target has a place in reach. -/
theorem patchAll_ok_iff {fixups : List Fixup} {bytes : List UInt8}
    (inside : ∀ fixup ∈ fixups, fixup.offset + 1 < bytes.length) :
    (∃ patched, patchAll labels lines fixups bytes = (.ok (), patched)) ↔
      ∀ fixup ∈ fixups, ∃ offset ≤ 255, labels.offset? fixup.target = some offset := by
  have hpatchable : (∀ fixup ∈ fixups, fixup.Patchable labels bytes.length) ↔
      ∀ fixup ∈ fixups, ∃ offset ≤ 255, labels.offset? fixup.target = some offset :=
    forall₂_congr fun fixup hfixup => and_iff_left (inside fixup hfixup)
  have hok : (∃ patched, patchAll labels lines fixups bytes = (.ok (), patched)) ↔
      (patchAll labels lines fixups bytes).1 = .ok () :=
    ⟨fun ⟨_, h⟩ => congrArg Prod.fst h, fun h => ⟨_, Prod.ext h rfl⟩⟩
  rw [← hpatchable, hok]
  exact patchAll_eq_ok_iff

theorem getElem?_fillIn (place : LabelId → Nat) {fixups : List Fixup} {bytes : List UInt8}
    (inside : ∀ fixup ∈ fixups, fixup.offset + 1 < bytes.length)
    (distinct : (fixups.map Fixup.offset).Nodup) {fixup : Fixup} (h : fixup ∈ fixups) :
    (fillIn place fixups bytes)[fixup.offset + 1]? =
      some (UInt8.ofNat (place fixup.target)) := by
  induction fixups generalizing bytes with
  | nil => cases h
  | cons first rest ih =>
    obtain ⟨hnew, hrest⟩ := List.nodup_cons.1 distinct
    rcases List.mem_cons.1 h with rfl | h
    · have hne : ∀ other ∈ rest, fixup.offset + 1 ≠ other.offset + 1 := by
        intro other hother heq
        rw [Nat.succ.inj heq] at hnew
        exact hnew (List.mem_map_of_mem hother)
      refine (getElem?_fillIn_of_ne place hne).trans ?_
      exact List.getElem?_set_self (inside fixup (List.mem_cons_self ..))
    · exact ih (by simpa using fun f hf => inside f (List.mem_cons_of_mem _ hf)) hrest h

/-- When patching succeeds, every label that is jumped to is at the offset of its item. -/
theorem assembleFrom_places {items : List Item} {layout : Layout} {bytes : List UInt8}
    (unplaced : ∀ id, labels.offset? id = none) (known : labels.Cover items)
    (hlower : (Layout.lowerAll lines items).run (.empty labels) = .ok () layout)
    (hpatch : patchAll layout.labels lines layout.fixups layout.bytes = (.ok (), bytes)) :
    assembleFrom layout.labels.places 0 items = assembleFrom (labelPlace items) 0 items := by
  have hlowered := Layout.lowered_of_run known hlower
  have hreach := (patchAll_ok_iff hlowered.sound).1 ⟨bytes, hpatch⟩
  have hassemblable := (hlowered.reach_iff unplaced known).1 hreach
  exact assembleFrom_congr 0
    fun item hitem target htarget => hlowered.places_eq hassemblable hitem htarget

/-- Items over labels of which none is placed yet are laid out and patched without a failure exactly
if they are assemblable. Patching changes only the operands of recorded jumps, no two of which are
the same byte; when it succeeds, each holds the offset of its target, and the bytes are those of the
direct assembler. -/
theorem patched_iff_assemblable {items : List Item}
    (unplaced : ∀ id, labels.offset? id = none) (known : labels.Cover items) :
    ((∃ layout bytes, (Layout.lowerAll lines items).run (.empty labels) = .ok () layout ∧
        patchAll layout.labels lines layout.fixups layout.bytes = (.ok (), bytes)) ↔
      Assemblable items) ∧
    ∀ layout result bytes, (Layout.lowerAll lines items).run (.empty labels) = .ok () layout →
      patchAll layout.labels lines layout.fixups layout.bytes = (result, bytes) →
      (layout.fixups.map Fixup.offset).Nodup ∧ bytes.length = layout.bytes.length ∧
      (∀ index, (∀ fixup ∈ layout.fixups, index ≠ fixup.offset + 1) →
        bytes[index]? = layout.bytes[index]?) ∧
      (result = .ok () → bytes = imageBytes (assembleFrom (labelPlace items) 0 items) ∧
        ∀ fixup ∈ layout.fixups, ∃ offset ≤ 255,
          layout.labels.offset? fixup.target = some offset ∧
          bytes[fixup.offset + 1]? = some (UInt8.ofNat offset)) := by
  refine ⟨⟨?_, fun hassemblable => ?_⟩, fun layout result bytes hlower hpatch => ?_⟩
  · rintro ⟨layout, bytes, hlower, hpatch⟩
    have hlowered := Layout.lowered_of_run known hlower
    exact (hlowered.reach_iff unplaced known).1 ((patchAll_ok_iff hlowered.sound).1 ⟨bytes, hpatch⟩)
  · -- Assemblable items are laid out, since a failure would say what stands in their way.
    have hdoes := Layout.does_lowered lines known
    unfold Layout.Does at hdoes
    cases hlower : Layout.lowerAll lines items (.empty labels) with
    | error report after =>
      rw [hlower] at hdoes
      exact absurd (hassemblable.possible unplaced) hdoes
    | ok _ layout =>
      rw [hlower] at hdoes
      obtain ⟨bytes, hpatch⟩ :=
        (patchAll_ok_iff hdoes.sound).2 ((hdoes.reach_iff unplaced known).2 hassemblable)
      exact ⟨layout, bytes, hlower, hpatch⟩
  · have hlowered := Layout.lowered_of_run known hlower
    -- The rest is about any outcome of patching, and at last about a success.
    have hothers := patchAll_others layout.labels lines layout.fixups layout.bytes
    rw [hpatch] at hothers
    refine ⟨hlowered.nodup_offsets, hothers.1, hothers.2, ?_⟩
    rintro rfl
    have hreach := (patchAll_ok_iff hlowered.sound).1 ⟨bytes, hpatch⟩
    have hfilled := patchAll_spec layout.labels lines layout.fixups layout.bytes hlowered.sound
    rw [hpatch] at hfilled
    refine ⟨?_, fun fixup hfixup => ?_⟩
    · rw [(assembled_of_layout hlower hpatch).bytes_eq,
        assembleFrom_places unplaced known hlower hpatch]
    · obtain ⟨offset, hle, hoffset⟩ := hreach fixup hfixup
      refine ⟨offset, hle, hoffset, ?_⟩
      rw [hfilled.1, getElem?_fillIn _ hlowered.sound hlowered.nodup_offsets hfixup, Labels.places,
        hoffset]
      rfl

/-- Jumps back, ahead, to themselves and over a comparison, and a call. -/
theorem patched_iff_assemblable_loop :
    let items : List Item := [.label 0 1, .instruction (.load 1 5),
      .compare .greater 1 (.label 1) .next 2, .goto 0 3, .label 1 4, .call 2 5, .halt, .label 2 6,
      .label 3 7, .goto 3 8, .ret]
    Assemblable items ∧ imageBytes (assembleFrom (labelPlace items) 0 items) =
      [0x21, 5, 0xF1, 8, 0xB1, 8, 0xB0, 10, 0xB0, 0, 0x20, 16, 0x42, 1, 0xB0, 18, 0xC0, 0, 0xB0, 18,
        0x43, 0x10] := by
  intro items
  let labels : Labels := ⟨[⟨"loop", true, none⟩, ⟨"done", true, none⟩, ⟨"main", false, none⟩,
    ⟨"self", true, none⟩]⟩
  have hunplaced : ∀ id, labels.offset? id = none := by
    intro id
    match id with
    | 0 | 1 | 2 | 3 | _ + 4 => rfl
  have hknown : labels.Cover items := by
    unfold Labels.Cover items labels
    decide
  let layout : Layout := ⟨[0x21, 5, 0xF1, 0, 0xB1, 0, 0xB0, 0, 0xB0, 0, 0x20, 16, 0x42, 1, 0xB0, 0,
    0xC0, 0, 0xB0, 0, 0x43, 0x10], ⟨[⟨"loop", true, some 0⟩, ⟨"done", true, some 10⟩,
      ⟨"main", false, some 18⟩, ⟨"self", true, some 18⟩, ⟨"jump_4", false, some 8⟩]⟩,
    [⟨2, 4, 2⟩, ⟨4, 4, 2⟩, ⟨6, 1, 2⟩, ⟨8, 0, 3⟩, ⟨14, 2, 5⟩, ⟨18, 3, 8⟩]⟩
  have hlower : (Layout.lowerAll [] items).run (.empty labels) = .ok () layout := by
    unfold items labels layout
    rfl
  have hpatch : patchAll layout.labels [] layout.fixups layout.bytes =
      (.ok (), [0x21, 5, 0xF1, 8, 0xB1, 8, 0xB0, 10, 0xB0, 0, 0x20, 16, 0x42, 1, 0xB0, 18, 0xC0, 0,
        0xB0, 18, 0x43, 0x10]) := by rfl
  have hall := @patched_iff_assemblable labels [] items hunplaced hknown
  refine ⟨hall.1.1 ⟨layout, _, hlower, hpatch⟩, ?_⟩
  exact ((hall.2 layout _ _ hlower hpatch).2.2.2 rfl).1.symm

end Patching

end ByteBasic
