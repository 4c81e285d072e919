import ByteBasic.Proofs.Code.Faults

/-!
# Code grows by the size of its items

`Item.size` says how many bytes an item takes without laying it out, and space is set aside by it. So
it has to be what laying out comes to, for every comparison and every way its outcomes go. And where
an item cannot be laid out, nothing of it may be left in the code.

A part of laying out either appends the words of some instructions, the jumps that it records being
among them (`Grows`), or fails before it has appended anything or moved a label (`Balks`). It cannot
fail half way: the register of a comparison is that of its first test, and nothing after that needs a
register that may not exist or a label that may be taken.

**Theorem (`code_grows_by_item_sizes`).** Laying out an item appends as many bytes as its size, or
leaves all bytes and labels as they were. In code laid out from the start, every recorded jump stands
at an even offset with an operand of zero, and they are recorded in the order of the code.
-/

namespace ByteBasic

/-- A jump that still waits for its operand: its word is inside the bytes, at an even offset. -/
structure Fixup.Awaits (fixup : Fixup) (bytes : List UInt8) : Prop where
  even : fixup.offset % 2 = 0
  inside : fixup.offset + 1 < bytes.length
  jump : ∃ high test register, bytes[fixup.offset]? = some high ∧
    bytes[fixup.offset + 1]? = some 0 ∧
    Instruction.decode (wordOfBytes high 0) = .jump test register 0

namespace Layout

/-! ## Recorded jumps -/

/-- Jumps recorded in code that starts at an offset: they are in the order of the code, and each is
one of its instructions, with an operand of zero. -/
structure Locates (start : Nat) (code : List Instruction) (fixups : List Fixup) : Prop where
  sorted : (fixups.map Fixup.offset).Pairwise (· < ·)
  jump : ∀ fixup ∈ fixups, ∃ (index : Nat) (test : JumpTest) (register : UInt8),
    fixup.offset = start + 2 * index ∧ register.toNat < 16 ∧
      code[index]? = some (.jump test register 0)

namespace Locates

variable {start : Nat} {code later : List Instruction} {fixups more : List Fixup}

theorem nil (start : Nat) (code : List Instruction) : Locates start code [] :=
  ⟨.nil, fun _ h => by cases h⟩

theorem singleton (start : Nat) (test : JumpTest) {register : UInt8} (h : register.toNat < 16)
    (target : LabelId) (line : Nat) :
    Locates start [.jump test register 0] [⟨start, target, line⟩] where
  sorted := List.pairwise_singleton ..
  jump fixup hmem := by
    rw [List.mem_singleton.1 hmem]
    exact ⟨0, test, register, rfl, h, rfl⟩

/-- A recorded jump is inside the code that it was recorded in. -/
theorem lt (h : Locates start code fixups) {fixup : Fixup} (hmem : fixup ∈ fixups) :
    fixup.offset < start + 2 * code.length := by
  obtain ⟨index, test, register, hoffset, -, hcode⟩ := h.jump fixup hmem
  have hindex := (List.getElem?_eq_some_iff.1 hcode).1
  omega

theorem append (h₁ : Locates start code fixups)
    (h₂ : Locates (start + 2 * code.length) later more) :
    Locates start (code ++ later) (fixups ++ more) where
  sorted := by
    rw [List.map_append, List.pairwise_append]
    refine ⟨h₁.sorted, h₂.sorted, fun x hx y hy => ?_⟩
    obtain ⟨first, hfirst, rfl⟩ := List.mem_map.1 hx
    obtain ⟨second, hsecond, rfl⟩ := List.mem_map.1 hy
    have hlt := h₁.lt hfirst
    obtain ⟨index, -, -, hoffset, -, -⟩ := h₂.jump second hsecond
    omega
  jump fixup hmem := by
    rcases List.mem_append.1 hmem with hmem | hmem
    · obtain ⟨index, test, register, hoffset, hr, hcode⟩ := h₁.jump fixup hmem
      have hindex := (List.getElem?_eq_some_iff.1 hcode).1
      exact ⟨index, test, register, hoffset, hr, by rw [List.getElem?_append_left hindex, hcode]⟩
    · obtain ⟨index, test, register, hoffset, hr, hcode⟩ := h₂.jump fixup hmem
      refine ⟨code.length + index, test, register, by omega, hr, ?_⟩
      rw [List.getElem?_append_right (Nat.le_add_right ..), Nat.add_sub_cancel_left, hcode]

end Locates

theorem getElem?_imageBytes {code : List Instruction} {index : Nat} {instruction : Instruction}
    (h : code[index]? = some instruction) :
    (imageBytes code)[2 * index]? = some (UInt8.ofNat (instruction.word.toNat / 256)) ∧
      (imageBytes code)[2 * index + 1]? = some instruction.word.toUInt8 := by
  induction code generalizing index with
  | nil => cases h
  | cons first rest ih =>
    have hlength : (bytesOfWord first.word).length = 2 := rfl
    rw [imageBytes_cons]
    cases index with
    | zero =>
      obtain rfl : first = instruction := Option.some.inj h
      exact ⟨rfl, rfl⟩
    | succ index =>
      obtain ⟨hhigh, hlow⟩ := ih h
      rw [List.getElem?_append_right (by omega), List.getElem?_append_right (by omega), hlength]
      exact ⟨hhigh, hlow⟩

/-- Jumps recorded in code from the start await their operands. -/
theorem Locates.awaits {code : List Instruction} {fixups : List Fixup} (h : Locates 0 code fixups)
    {fixup : Fixup} (hmem : fixup ∈ fixups) : fixup.Awaits (imageBytes code) := by
  obtain ⟨index, test, register, hoffset, hr, hcode⟩ := h.jump fixup hmem
  rw [Nat.zero_add] at hoffset
  have hindex := (List.getElem?_eq_some_iff.1 hcode).1
  have hfits : (Instruction.jump test register 0).Fits := fits_jump_iff.2 hr
  have hzero : (Instruction.jump test register 0).word.toUInt8 = 0 :=
    value_byteWord test.opcode hr 0
  obtain ⟨hhigh, hlow⟩ := getElem?_imageBytes hcode
  have hword := wordOfBytes_bytesOfWord (Instruction.jump test register 0).word
  rw [hzero] at hlow hword
  refine ⟨by omega, ?_, _, test, register, by rw [hoffset]; exact hhigh, by rw [hoffset]; exact hlow, ?_⟩
  · rw [length_imageBytes]
    omega
  · rw [hword]
    exact Instruction.decode_word hfits fun _ h => by cases h

/-! ## Growing -/

/-- A part of laying out appends the words of some instructions and records jumps among them. -/
structure Grows (code : List Instruction) (before after : Layout) : Prop where
  bytes : after.bytes = before.bytes ++ imageBytes code
  fixups : ∃ fixups, after.fixups = before.fixups ++ fixups ∧
    Locates before.bytes.length code fixups

theorem Grows.silent {before after : Layout} (hbytes : after.bytes = before.bytes)
    (hfixups : after.fixups = before.fixups) : Grows [] before after where
  bytes := by rw [hbytes, imageBytes_nil, List.append_nil]
  fixups := ⟨[], by rw [hfixups, List.append_nil], .nil _ _⟩

theorem Grows.trans {code later : List Instruction} {a b c : Layout} (h₁ : Grows code a b)
    (h₂ : Grows later b c) : Grows (code ++ later) a c where
  bytes := by rw [h₂.bytes, h₁.bytes, imageBytes_append, List.append_assoc]
  fixups := by
    obtain ⟨first, hfirst, hlocates⟩ := h₁.fixups
    obtain ⟨second, hsecond, hlocates'⟩ := h₂.fixups
    rw [h₁.bytes, List.length_append, length_imageBytes] at hlocates'
    exact ⟨first ++ second, by rw [hsecond, hfirst, List.append_assoc], hlocates.append hlocates'⟩

/-- A part of laying out that grows the code and leaves the labels alone. -/
structure Appends (code : List Instruction) (before after : Layout) : Prop where
  labels : after.labels = before.labels
  grows : Grows code before after

theorem Appends.refl (layout : Layout) : Appends [] layout layout :=
  ⟨rfl, .silent rfl rfl⟩

theorem Appends.trans {code later : List Instruction} {a b c : Layout} (h₁ : Appends code a b)
    (h₂ : Appends later b c) : Appends (code ++ later) a c :=
  ⟨h₂.labels.trans h₁.labels, h₁.grows.trans h₂.grows⟩

/-! ## Going on and failing -/

/-- No byte has changed, and every label that was there is where it was. -/
structure Unmoved (before after : Layout) : Prop where
  bytes : after.bytes = before.bytes
  size_le : before.labels.size ≤ after.labels.size
  offsets : ∀ id < before.labels.size, after.labels.offset? id = before.labels.offset? id

theorem Unmoved.refl (layout : Layout) : Unmoved layout layout :=
  ⟨rfl, Nat.le_refl _, fun _ _ => rfl⟩

theorem Unmoved.trans {a b c : Layout} (h₁ : Unmoved a b) (h₂ : Unmoved b c) : Unmoved a c where
  bytes := h₂.bytes.trans h₁.bytes
  size_le := Nat.le_trans h₁.size_le h₂.size_le
  offsets id hid := by
    rw [h₂.offsets id (Nat.lt_of_lt_of_le hid h₁.size_le), h₁.offsets id hid]

section Endings

variable {α β : Type} {part : LayoutM α} {next : α → LayoutM β} {before : Layout}

/-- The part succeeds and leads to such a layout. -/
def Leads (part : LayoutM α) (before : Layout) (goal : α → Layout → Prop) : Prop :=
  ∃ value after, part before = .ok value after ∧ goal value after

/-- The part fails and leaves everything that was there `before` where it was. -/
def Balks (part : LayoutM α) (before : Layout) : Prop :=
  ∃ report after, part before = .error report after ∧ Unmoved before after

theorem Leads.bind {mid : α → Layout → Prop} {goal : β → Layout → Prop}
    (h : Leads part before mid)
    (hnext : ∀ value layout, mid value layout → Leads (next value) layout goal) :
    Leads (part >>= next) before goal := by
  obtain ⟨value, layout, hpart, hmid⟩ := h
  obtain ⟨result, after, hlater, hgoal⟩ := hnext value layout hmid
  exact ⟨result, after, by simp only [Bind.bind, EStateM.bind, hpart, hlater], hgoal⟩

theorem Balks.bind (h : Balks part before) (next : α → LayoutM β) :
    Balks (part >>= next) before := by
  obtain ⟨report, after, hpart, hunmoved⟩ := h
  exact ⟨report, after, by simp only [Bind.bind, EStateM.bind, hpart], hunmoved⟩

/-- Failing after a part that has left everything where it was. -/
theorem Leads.balks (h : Leads part before fun _ layout => Unmoved before layout)
    (hnext : ∀ value layout, Balks (next value) layout) : Balks (part >>= next) before := by
  obtain ⟨value, layout, hpart, hunmoved⟩ := h
  obtain ⟨report, after, hlater, hunmoved'⟩ := hnext value layout
  exact ⟨report, after, by simp only [Bind.bind, EStateM.bind, hpart, hlater],
    hunmoved.trans hunmoved'⟩

theorem Leads.get {next : Layout → LayoutM β} {goal : β → Layout → Prop}
    (h : Leads (next before) before goal) : Leads (get >>= next) before goal := h

theorem Balks.get {next : Layout → LayoutM β} (h : Balks (next before) before) :
    Balks (get >>= next) before := h

end Endings

/-! ## The parts -/

variable (lines : List String) (layout : Layout)

theorem run_append {instruction : Instruction} (h : instruction.Fits) :
    append instruction layout =
      .ok () { layout with bytes := layout.bytes ++ bytesOfWord instruction.word } := by
  have hencode : instruction.encode = .ok instruction.word :=
    Instruction.encode_eq_ok_iff.2 ⟨h, rfl⟩
  simp only [append, hencode]
  rfl

theorem run_append_misfit {instruction : Instruction} (h : ¬ instruction.Fits) :
    ∃ report, append instruction layout = .error report layout := by
  cases hencode : instruction.encode with
  | ok word => exact absurd (Instruction.encode_eq_ok_iff.1 hencode).1 h
  | error error =>
    refine ⟨Report.ofCause (.encoding error), ?_⟩
    simp only [append, hencode]
    rfl

theorem leads_append {instruction : Instruction} (h : instruction.Fits) :
    Leads (append instruction) layout fun _ after => Appends [instruction] layout after := by
  refine ⟨(), _, run_append layout h, rfl, ?_, [], (List.append_nil _).symm, .nil _ _⟩
  rw [imageBytes_cons, imageBytes_nil, List.append_nil]

theorem balks_append {instruction : Instruction} (h : ¬ instruction.Fits) :
    Balks (append instruction) layout := by
  obtain ⟨report, hrun⟩ := run_append_misfit layout h
  exact ⟨report, layout, hrun, .refl layout⟩

theorem leads_jump (test : JumpTest) {register : UInt8} (h : register.toNat < 16)
    (target : LabelId) (line : Nat) :
    Leads (jump test register target line) layout fun _ after =>
      Appends [.jump test register 0] layout after := by
  have hrun := run_append
    { layout with fixups := layout.fixups ++ [⟨layout.bytes.length, target, line⟩] }
    (fits_jump_iff.2 h : (Instruction.jump test register 0).Fits)
  refine ⟨(), _, hrun, rfl, ?_, _, rfl, .singleton _ test h target line⟩
  rw [imageBytes_cons, imageBytes_nil, List.append_nil]

/-- A jump that cannot be encoded has been recorded, but is not in the code. -/
theorem balks_jump (test : JumpTest) {register : UInt8} (h : ¬ register.toNat < 16)
    (target : LabelId) (line : Nat) : Balks (jump test register target line) layout := by
  obtain ⟨report, hrun⟩ := run_append_misfit
    { layout with fixups := layout.fixups ++ [⟨layout.bytes.length, target, line⟩] }
    (fun hfits => h (fits_jump_iff.1 hfits) : ¬ (Instruction.jump test register 0).Fits)
  exact ⟨report, _, hrun, rfl, Nat.le_refl _, fun _ _ => rfl⟩

theorem leads_jumpAll (tests : List JumpTest) {register : UInt8} (h : register.toNat < 16)
    (target : LabelId) (line : Nat) :
    Leads (jumpAll tests register target line) layout fun _ after =>
      Appends (tests.map fun test => .jump test register 0) layout after := by
  induction tests generalizing layout with
  | nil => exact ⟨(), layout, rfl, .refl layout⟩
  | cons test tests ih =>
    refine (leads_jump layout test h target line).bind fun _ mid hmid => ?_
    obtain ⟨_, after, hrun, hafter⟩ := ih mid
    exact ⟨(), after, hrun, hmid.trans hafter⟩

/-- The jumps of a comparison that has no register fail at the first of them. -/
theorem balks_jumpAll {tests : List JumpTest} (hne : tests ≠ []) {register : UInt8}
    (h : ¬ register.toNat < 16) (target : LabelId) (line : Nat) :
    Balks (jumpAll tests register target line) layout := by
  cases tests with
  | nil => exact absurd rfl hne
  | cons test tests => exact (balks_jump layout test h target line).bind _

theorem leads_jumpOtherwise (target : Target) (line : Nat) :
    Leads (jumpOtherwise target line) layout fun _ after =>
      Appends (target.jumpOtherwise fun _ => 0) layout after := by
  cases target with
  | label id => exact leads_jump layout .equal (by decide) id line
  | next => exact ⟨(), layout, rfl, .refl layout⟩

theorem leads_place {label : LabelId} (free : layout.labels.offset? label = none) (line : Nat) :
    Leads (Layout.place lines label line) layout fun _ after => Grows [] layout after :=
  ⟨(), _, place_of_free free lines line, .silent rfl rfl⟩

theorem balks_place {label : LabelId} {existing : Nat}
    (taken : layout.labels.offset? label = some existing) (line : Nat) :
    Balks (Layout.place lines label line) layout :=
  ⟨_, layout, place_of_placed taken lines line, .refl layout⟩

theorem leads_joinLabel :
    Leads joinLabel layout fun join after => join = layout.labels.size ∧ ∃ name,
      after = { layout with labels := (layout.labels.fresh name).2 } :=
  ⟨_, _, rfl, rfl, _, rfl⟩

theorem unmoved_fresh (name : String) :
    Unmoved layout { layout with labels := (layout.labels.fresh name).2 } where
  bytes := rfl
  size_le := (Labels.extends_fresh layout.labels name).size_le
  offsets _ hid := Labels.offset?_fresh_of_lt _ _ hid

/-! ## Items -/

/-- The part appends so many words, or nothing has happened to the code. -/
def Sized (words : Nat) (part : LayoutM Unit) (layout : Layout) : Prop :=
  Leads part layout (fun _ after => ∃ code, code.length = words ∧ Grows code layout after) ∨
    Balks part layout

theorem sized_compare (comparison : Comparison) (register : UInt8) (accept reject : Target)
    (line : Nat) :
    Sized (Item.compare comparison register accept reject line).words
      (compare lines comparison register accept reject line) layout := by
  have htests : comparison.tests ≠ [] := by cases comparison <;> exact fun h => by cases h
  -- The words of the item are its tests and the jump that may follow them.
  have hwords : ∀ otherwise, comparison.verdict.opposite.pick accept reject = otherwise →
      ((comparison.tests.map fun test => Instruction.jump test register 0) ++
        otherwise.jumpOtherwise fun _ => 0).length =
      (Item.compare comparison register accept reject line).words := by
    rintro otherwise rfl
    rw [List.length_append, List.length_map, Item.words]
    cases comparison.verdict.opposite.pick accept reject <;> rfl
  unfold compare
  generalize hotherwise : comparison.verdict.opposite.pick accept reject = otherwise
  have hwords := hwords otherwise hotherwise
  cases comparison.verdict.pick accept reject with
  | label id =>
    by_cases hr : register.toNat < 16
    · refine .inl ((leads_jumpAll layout comparison.tests hr id line).bind fun _ mid hmid => ?_)
      obtain ⟨_, after, hrun, hafter⟩ := leads_jumpOtherwise mid otherwise line
      exact ⟨(), after, hrun, _, hwords, (hmid.trans hafter).grows⟩
    · exact .inr ((balks_jumpAll layout htests hr id line).bind _)
  | next =>
    by_cases hr : register.toNat < 16
    · refine .inl ((leads_joinLabel layout).bind fun join start hjoin => ?_)
      obtain ⟨rfl, name, rfl⟩ := hjoin
      refine (leads_jumpAll _ comparison.tests hr layout.labels.size line).bind fun _ mid hmid => ?_
      refine (leads_jumpOtherwise mid otherwise line).bind fun _ last hlast => ?_
      have happends := hmid.trans hlast
      -- The label of the comparison is new, so nothing else has placed it.
      have hfree : last.labels.offset? layout.labels.size = none := by
        rw [happends.labels]
        exact Labels.offset?_fresh_self layout.labels name
      obtain ⟨_, after, hrun, hafter⟩ := leads_place lines last hfree line
      have hgrows := happends.grows.trans hafter
      rw [List.append_nil] at hgrows
      exact ⟨(), after, hrun, _, hwords, hgrows.bytes, hgrows.fixups⟩
    · refine .inr (Leads.balks ?_ fun join start => (balks_jumpAll start htests hr join line).bind _)
      obtain ⟨join, start, hrun, -, name, rfl⟩ := leads_joinLabel layout
      exact ⟨join, _, hrun, unmoved_fresh layout name⟩

theorem sized_call (main : LabelId) (line : Nat) :
    Sized (Item.call main line).words (call lines main line) layout := by
  by_cases hback : layout.bytes.length + 6 > 255
  · refine .inr (Balks.get ?_)
    simp only [if_pos hback]
    exact ⟨_, layout, rfl, .refl layout⟩
  · refine .inl (Leads.get ?_)
    simp only [if_neg hback]
    have hload : (Instruction.load 0 (UInt8.ofNat (layout.bytes.length + 6))).Fits := by
      simp [Instruction.Fits, Instruction.nibbles]
    refine (leads_append layout hload).bind fun _ loaded hloaded => ?_
    have hpush : (Instruction.move (.general 0) (.special .stack)).Fits := by decide
    refine (leads_append loaded hpush).bind fun _ pushed hpushed => ?_
    have hzero : (0 : UInt8).toNat < 16 := by decide
    obtain ⟨_, after, hrun, hafter⟩ := leads_jump pushed .equal hzero main line
    exact ⟨(), after, hrun, _, rfl, ((hloaded.trans hpushed).trans hafter).grows⟩

theorem sized_append (instruction : Instruction) : Sized 1 (append instruction) layout := by
  by_cases hfits : instruction.Fits
  · obtain ⟨_, after, hrun, hafter⟩ := leads_append layout hfits
    exact .inl ⟨(), after, hrun, [instruction], rfl, hafter.grows⟩
  · exact .inr (balks_append layout hfits)

theorem sized_jump (test : JumpTest) (register : UInt8) (target : LabelId) (line : Nat) :
    Sized 1 (jump test register target line) layout := by
  by_cases hr : register.toNat < 16
  · obtain ⟨_, after, hrun, hafter⟩ := leads_jump layout test hr target line
    exact .inl ⟨(), after, hrun, [.jump test register 0], rfl, hafter.grows⟩
  · exact .inr (balks_jump layout test hr target line)

/-- Laying out an item appends its words, or nothing has happened to the code. -/
theorem sized_lower (item : Item) : Sized item.words (lower lines item) layout := by
  cases item with
  | label label line =>
    cases hoffset : layout.labels.offset? label with
    | none =>
      obtain ⟨_, after, hrun, hafter⟩ := leads_place lines layout hoffset line
      exact .inl ⟨(), after, hrun, [], rfl, hafter⟩
    | some existing => exact .inr (balks_place lines layout hoffset line)
  | instruction instruction => exact sized_append layout instruction
  | jump test register target line => exact sized_jump layout test register target line
  | goto target line => exact sized_jump layout .equal 0 target line
  | compare comparison register accept reject line =>
    exact sized_compare lines layout comparison register accept reject line
  | call main line => exact sized_call lines layout main line
  | ret => exact sized_append layout (.move (.special .stack) (.special .programCounter))
  | halt => exact sized_append layout .halt

/-- Items that are laid out one after the other append their words. -/
theorem grows_lowerAll {items : List Item} {after : Layout}
    (h : (lowerAll lines items).run layout = .ok () after) :
    ∃ code, 2 * code.length = (items.map Item.size).sum ∧ Grows code layout after := by
  induction items generalizing layout with
  | nil =>
    obtain rfl : layout = after := by cases h; rfl
    exact ⟨[], rfl, .silent rfl rfl⟩
  | cons item items ih =>
    have hrun : (lower lines item >>= fun _ => lowerAll lines items) layout = .ok () after := h
    simp only [Bind.bind, EStateM.bind] at hrun
    rcases sized_lower lines layout item with ⟨_, mid, hitem, code, hwords, hgrows⟩ | hbalks
    · rw [hitem] at hrun
      obtain ⟨later, hlater, hgrows'⟩ := ih mid hrun
      refine ⟨code ++ later, ?_, hgrows.trans hgrows'⟩
      rw [List.length_append, List.map_cons, List.sum_cons, ← hlater, hwords, Item.size]
      omega
    · obtain ⟨report, left, hfail, -⟩ := hbalks
      rw [hfail] at hrun
      cases hrun

end Layout

/-- **Code grows by the size of its items.** Whatever has been laid out before, an item that is laid
out appends as many bytes as its size and changes none before them, and one that cannot be laid out
changes no byte and moves no label. Of any items laid out from the start, over any labels, every
recorded jump stands at an even offset inside the code, with an operand of zero, and the recorded
offsets are increasing. -/
theorem code_grows_by_item_sizes (lines : List String) :
    (∀ item layout,
      match (Layout.lower lines item).run layout with
      | .ok () after =>
        ∃ code, after.bytes = layout.bytes ++ code ∧ code.length = item.size
      | .error _ after => Layout.Unmoved layout after) ∧
    ∀ labels items layout, (Layout.lowerAll lines items).run (.empty labels) = .ok () layout →
      layout.bytes.length = (items.map Item.size).sum ∧
        (∀ fixup ∈ layout.fixups, fixup.Awaits layout.bytes) ∧
        (layout.fixups.map Fixup.offset).Pairwise (· < ·) := by
  refine ⟨fun item layout => ?_, fun labels items layout hrun => ?_⟩
  · rcases Layout.sized_lower lines layout item with ⟨_, after, hitem, code, hwords, hgrows⟩ |
      ⟨report, after, hitem, hunmoved⟩
    · rw [EStateM.run, hitem]
      refine ⟨imageBytes code, hgrows.bytes, ?_⟩
      rw [length_imageBytes, hwords, Item.size]
    · rw [EStateM.run, hitem]
      exact hunmoved
  · obtain ⟨code, hsize, hbytes, fixups, hfixups, hlocates⟩ :=
      Layout.grows_lowerAll lines (.empty labels) hrun
    have hbytes : layout.bytes = imageBytes code := hbytes
    have hfixups : layout.fixups = fixups := hfixups
    rw [hbytes, hfixups, length_imageBytes]
    exact ⟨hsize, fun fixup hmem => hlocates.awaits hmem, hlocates.sorted⟩

/-- A comparison of three jumps, one to its own end, and a call; and a comparison in a register that
does not exist, which has made its label and recorded a jump when it fails. -/
theorem code_grows_by_item_sizes_comparison :
    let labels : Labels := ⟨[⟨"else", false, none⟩, ⟨"main", false, none⟩]⟩
    let items : List Item := [.compare .lessEqual 1 .next (.label 0) 1, .label 0 1, .call 1 2,
      .label 1 3, .ret]
    let bytes : List UInt8 := [0xF1, 0, 0xB1, 0, 0xB0, 0, 0x20, 12, 0x42, 1, 0xB0, 0, 0x43, 0x10]
    (∃ layout, (Layout.lowerAll [] items).run (.empty labels) = .ok () layout ∧
      layout.bytes = bytes ∧ bytes.length = (items.map Item.size).sum ∧
      layout.fixups.map Fixup.offset = [0, 2, 4, 10] ∧
      Fixup.Awaits ⟨10, 1, 2⟩ bytes) ∧
    ∃ report after, (Layout.lower [] (.compare .less 16 .next .next 1)).run (.empty labels) =
      .error report after ∧ after.fixups.length = 1 ∧ Layout.Unmoved (.empty labels) after := by
  intro labels items bytes
  obtain ⟨hitem, hall⟩ := code_grows_by_item_sizes []
  constructor
  · let layout : Layout := ⟨bytes, ⟨[⟨"else", false, some 6⟩, ⟨"main", false, some 12⟩,
      ⟨"jump_2", false, some 6⟩]⟩, [⟨0, 2, 1⟩, ⟨2, 2, 1⟩, ⟨4, 0, 1⟩, ⟨10, 1, 2⟩]⟩
    have hrun : (Layout.lowerAll [] items).run (.empty labels) = .ok () layout := by
      unfold items labels layout bytes
      rfl
    obtain ⟨hlength, hawaits, -⟩ := hall labels items layout hrun
    exact ⟨layout, hrun, rfl, hlength, rfl, hawaits ⟨10, 1, 2⟩ (by simp [layout])⟩
  · have hcompare := hitem (.compare .less 16 .next .next 1) (.empty labels)
    exact ⟨_, _, rfl, rfl, hcompare⟩

end ByteBasic
