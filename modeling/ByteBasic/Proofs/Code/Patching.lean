import ByteBasic.Proofs.Code.Assembly

/-!
# Layout and patching give the assembled code

`Layout.lower` writes every jump with an operand of zero and remembers it. Under an assignment of
places to labels, `Layout.resolved` is what the bytes become once all remembered operands are filled
in. Each step of laying out appends its assembled code to the resolved bytes (`Emits`), for every
assignment that agrees with the labels placed so far, and labels never move. So when all of it
succeeds, the patched bytes are the code assembled with the final places.

**Theorem (`assembled_of_layout`).** Items that are laid out and patched without a failure give
`Assembled` bytes.

**Theorem (`patchAll_spec`, `lowerAll_spec`).** A failure names the line of an item, or is that of a
register that does not exist.
-/

namespace ByteBasic

/-- A report that is not the compiler's own fault is blamed on the first line offered. -/
theorem Report.orLine_ofCause {φ : Type} [Cause φ] {cause : φ} (h : Cause.kind cause ≠ .internal)
    (line : SourceLine) : (ofCause cause).orLine line = ⟨cause, some line⟩ := by
  unfold orLine
  split
  case h_1 hkind => exact absurd hkind h
  case h_2 hline _ => cases hline
  case h_3 => rfl

theorem Report.cause_orLine {φ : Type} [Cause φ] (report : Report φ) (line : SourceLine) :
    (report.orLine line).cause = report.cause := by
  unfold orLine
  split <;> rfl

/-! ## Labels stay where they are -/

namespace Labels

/-- The later table has all labels of the earlier one, and those placed are still at their place. -/
structure Extends (before after : Labels) : Prop where
  size_le : before.size ≤ after.size
  offset : ∀ id offset, before.offset? id = some offset → after.offset? id = some offset

theorem Extends.refl (labels : Labels) : labels.Extends labels :=
  ⟨Nat.le_refl _, fun _ _ h => h⟩

theorem Extends.trans {a b c : Labels} (hab : a.Extends b) (hbc : b.Extends c) : a.Extends c :=
  ⟨Nat.le_trans hab.size_le hbc.size_le, fun id o h => hbc.offset id o (hab.offset id o h)⟩

theorem lt_size_of_offset {labels : Labels} {id offset : Nat}
    (h : labels.offset? id = some offset) : id < labels.size := by
  by_cases hlt : id < labels.size
  · exact hlt
  · rw [offset?, List.getElem?_eq_none (Nat.le_of_not_lt hlt)] at h
    cases h

theorem size_define (labels : Labels) (id offset : Nat) :
    (labels.define id offset).2.size = labels.size := by
  unfold define
  split
  · rfl
  · simp [size]

theorem extends_define {labels : Labels} {id : LabelId} (offset : Nat)
    (free : labels.offset? id = none) : labels.Extends (labels.define id offset).2 := by
  refine ⟨Nat.le_of_eq (size_define labels id offset).symm, fun other o h => ?_⟩
  have hne : id ≠ other := by
    rintro rfl
    rw [free] at h
    cases h
  simp only [define, free]
  simp only [offset?, List.getElem?_modify, if_neg hne] at h ⊢
  simpa using h

theorem extends_fresh (labels : Labels) (name : String) :
    labels.Extends (labels.fresh name).2 := by
  refine ⟨by simp [fresh, add, size], fun id o h => ?_⟩
  have hlt : id < labels.entries.length := lt_size_of_offset h
  simpa [fresh, add, offset?, List.getElem?_append_left hlt] using h

/-- The places agree with the labels that are placed. -/
def Consistent (place : LabelId → Nat) (labels : Labels) : Prop :=
  ∀ id offset, labels.offset? id = some offset → place id = offset

theorem Consistent.mono {place : LabelId → Nat} {before after : Labels}
    (h : after.Consistent place) (hext : before.Extends after) : before.Consistent place :=
  fun id o ho => h id o (hext.offset id o ho)

/-- The places of a table; a label that has none counts as placed at zero. -/
def places (labels : Labels) (id : LabelId) : Nat :=
  (labels.offset? id).getD 0

theorem consistent_places (labels : Labels) : labels.Consistent labels.places := by
  intro id o h
  rw [places, h]
  rfl

end Labels

/-! ## Resolved bytes -/

/-- Bytes with the operand of each jump filled in. -/
def fillIn (place : LabelId → Nat) (fixups : List Fixup) (bytes : List UInt8) : List UInt8 :=
  fixups.foldl (fun bytes fixup => bytes.set (fixup.offset + 1) (UInt8.ofNat (place fixup.target)))
    bytes

theorem length_fillIn (place : LabelId → Nat) (fixups : List Fixup) (bytes : List UInt8) :
    (fillIn place fixups bytes).length = bytes.length := by
  induction fixups generalizing bytes with
  | nil => rfl
  | cons fixup fixups ih => exact (ih _).trans (List.length_set ..)

/-- Operands inside the earlier bytes are filled in the same way when more bytes follow. -/
theorem fillIn_append (place : LabelId → Nat) {fixups : List Fixup} {bytes : List UInt8}
    (inside : ∀ fixup ∈ fixups, fixup.offset + 1 < bytes.length) (more : List UInt8) :
    fillIn place fixups (bytes ++ more) = fillIn place fixups bytes ++ more := by
  induction fixups generalizing bytes with
  | nil => rfl
  | cons fixup fixups ih =>
    have hlt := inside fixup (List.mem_cons_self ..)
    have hrest := fun f hf => inside f (List.mem_cons_of_mem _ hf)
    have hset : ∀ f ∈ fixups, f.offset + 1 <
        (bytes.set (fixup.offset + 1) (UInt8.ofNat (place fixup.target))).length := by
      simpa using hrest
    have hih := ih hset
    rw [← List.set_append_left _ _ hlt] at hih
    exact hih

namespace Layout

/-- The bytes as they become when the places are known. -/
def resolved (place : LabelId → Nat) (layout : Layout) : List UInt8 :=
  fillIn place layout.fixups layout.bytes

/-- Every remembered operand is among the bytes. -/
def Sound (layout : Layout) : Prop :=
  ∀ fixup ∈ layout.fixups, fixup.offset + 1 < layout.bytes.length

theorem sound_empty (labels : Labels) : (empty labels).Sound := by
  intro fixup h
  cases h

/-- A part of laying out appends code, whose jumps have these operands and come from these lines. -/
structure Emits (place : LabelId → Nat) (code : List Instruction) (operands lines : List Nat)
    (before after : Layout) : Prop where
  labels : before.labels.Extends after.labels
  length : after.bytes.length = before.bytes.length + 2 * code.length
  fits : after.labels.Consistent place → ∀ instruction ∈ code, instruction.Fits
  sound : before.Sound → after.Sound
  resolved : before.Sound → after.labels.Consistent place →
    after.resolved place = before.resolved place ++ imageBytes code
  fixups : ∀ fixup ∈ before.fixups, fixup ∈ after.fixups
  lines : ∀ fixup ∈ after.fixups, fixup ∈ before.fixups ∨ fixup.line ∈ lines
  near : after.labels.Consistent place → (∀ fixup ∈ after.fixups, place fixup.target ≤ 255) →
    ∀ operand ∈ operands, operand ≤ 255

namespace Emits

variable {place : LabelId → Nat} {a b c : Layout}

theorem trans {code₁ code₂ : List Instruction} {operands₁ operands₂ lines₁ lines₂ : List Nat}
    (h₁ : Emits place code₁ operands₁ lines₁ a b) (h₂ : Emits place code₂ operands₂ lines₂ b c) :
    Emits place (code₁ ++ code₂) (operands₁ ++ operands₂) (lines₁ ++ lines₂) a c where
  labels := h₁.labels.trans h₂.labels
  length := by
    rw [h₂.length, h₁.length, List.length_append]
    omega
  fits hc i hi := by
    rcases List.mem_append.1 hi with hi | hi
    · exact h₁.fits (hc.mono h₂.labels) i hi
    · exact h₂.fits hc i hi
  sound h := h₂.sound (h₁.sound h)
  resolved hs hc := by
    rw [h₂.resolved (h₁.sound hs) hc, h₁.resolved hs (hc.mono h₂.labels), imageBytes_append,
      List.append_assoc]
  fixups f hf := h₂.fixups f (h₁.fixups f hf)
  lines f hf := by
    rcases h₂.lines f hf with hf | hline
    · rcases h₁.lines f hf with hf | hline
      · exact .inl hf
      · exact .inr (List.mem_append_left _ hline)
    · exact .inr (List.mem_append_right _ hline)
  near hc hfix o ho := by
    rcases List.mem_append.1 ho with ho | ho
    · exact h₁.near (hc.mono h₂.labels) (fun f hf => hfix f (h₂.fixups f hf)) o ho
    · exact h₂.near hc hfix o ho

theorem of_labels {labels : Labels} (h : a.labels.Extends labels) :
    Emits place [] [] [] a { a with labels := labels } where
  labels := h
  length := rfl
  fits _ i hi := by cases hi
  sound h := h
  resolved _ _ := (List.append_nil _).symm
  fixups f hf := hf
  lines f hf := .inl hf
  near _ _ o ho := by cases ho

theorem refl (place : LabelId → Nat) (layout : Layout) : Emits place [] [] [] layout layout :=
  of_labels (.refl layout.labels)

/-- What a part is said to emit may be put differently. -/
theorem restate {code code' : List Instruction} {operands operands' lines lines' : List Nat}
    (h : Emits place code operands lines a b)
    (hlength : code'.length = code.length)
    (hcode : b.labels.Consistent place → code' = code)
    (hoperands : b.labels.Consistent place → (∀ operand ∈ operands, operand ≤ 255) →
      ∀ operand ∈ operands', operand ≤ 255)
    (hlines : ∀ line ∈ lines, line ∈ lines') :
    Emits place code' operands' lines' a b where
  labels := h.labels
  length := by rw [h.length, hlength]
  fits hc := by
    rw [hcode hc]
    exact h.fits hc
  sound := h.sound
  resolved hs hc := by rw [h.resolved hs hc, hcode hc]
  fixups := h.fixups
  lines f hf := (h.lines f hf).imp_right (hlines _)
  near hc hfix := hoperands hc (h.near hc hfix)

end Emits

/-! ## What each part emits -/

/-- A part of laying out ends with `ok` of its value and the layout reached, or with `bad` of its
report. -/
def Does {α : Type} (part : LayoutM α) (before : Layout) (ok : α → Layout → Prop)
    (bad : Report LayoutError → Prop) : Prop :=
  match part before with
  | .ok value after => ok value after
  | .error report _ => bad report

theorem Does.bind {α β : Type} {part : LayoutM α} {next : α → LayoutM β} {before : Layout}
    {mid : α → Layout → Prop} {ok : β → Layout → Prop} {bad : Report LayoutError → Prop}
    (h : Does part before mid bad) (hnext : ∀ a l, mid a l → Does (next a) l ok bad) :
    Does (part >>= next) before ok bad := by
  unfold Does at *
  simp only [Bind.bind, EStateM.bind]
  cases hpart : part before with
  | ok a l =>
    rw [hpart] at h
    exact hnext a l h
  | error report l =>
    rw [hpart] at h
    exact h

theorem Does.get {α : Type} {next : Layout → LayoutM α} {before : Layout}
    {ok : α → Layout → Prop} {bad : Report LayoutError → Prop}
    (h : Does (next before) before ok bad) : Does (get >>= next) before ok bad := h

theorem Does.imp {α : Type} {part : LayoutM α} {before : Layout} {ok ok' : α → Layout → Prop}
    {bad bad' : Report LayoutError → Prop} (h : Does part before ok bad)
    (hok : ∀ a l, ok a l → ok' a l) (hbad : ∀ r, bad r → bad' r) : Does part before ok' bad' := by
  unfold Does at *
  cases hpart : part before with
  | ok a l =>
    rw [hpart] at h
    exact hok a l h
  | error report l =>
    rw [hpart] at h
    exact hbad report h

theorem Does.of_append {instruction : Instruction} {before : Layout} {ok : Unit → Layout → Prop}
    {bad : Report LayoutError → Prop}
    (hok : instruction.Fits →
      ok () { before with bytes := before.bytes ++ bytesOfWord instruction.word })
    (hbad : ∀ error, ¬ instruction.Fits → bad (Report.ofCause (.encoding error))) :
    Does (append instruction) before ok bad := by
  unfold append
  cases hencode : instruction.encode with
  | error error =>
    refine hbad error fun hfits => ?_
    rw [Instruction.encode_eq_ok_iff.2 ⟨hfits, rfl⟩] at hencode
    cases hencode
  | ok word =>
    obtain ⟨hfits, rfl⟩ := Instruction.encode_eq_ok_iff.1 hencode
    exact hok hfits

theorem fits_jump_iff {test : JumpTest} {register operand : UInt8} :
    (Instruction.jump test register operand).Fits ↔ register.toNat < 16 := by
  simp [Instruction.Fits, Instruction.nibbles]

/-- A jump that cannot be encoded is recorded all the same, which `bad` says nothing of. -/
theorem Does.of_jump {test : JumpTest} {register : UInt8} {target : LabelId} {line : Nat}
    {before : Layout} {ok : Unit → Layout → Prop} {bad : Report LayoutError → Prop}
    (hok : register.toNat < 16 → ok () { before with
      bytes := before.bytes ++ bytesOfWord (Instruction.jump test register 0).word
      fixups := before.fixups ++ [⟨before.bytes.length, target, line⟩] })
    (hbad : ∀ error, ¬ register.toNat < 16 → bad (Report.ofCause (.encoding error))) :
    Does (jump test register target line) before ok bad := by
  have happend : Does (append (.jump test register 0))
      { before with fixups := before.fixups ++ [⟨before.bytes.length, target, line⟩] } ok bad :=
    .of_append (fun hfits => hok (fits_jump_iff.1 hfits))
      fun error hfits => hbad error fun hlt => hfits (fits_jump_iff.2 hlt)
  exact happend

/-- A report about one of these lines, on which it is blamed. -/
structure Blames (lines : List String) (numbers : List Nat) (report : Report LayoutError) :
    Prop where
  kind : report.kind = .compile ∨ report.kind = .jump
  line : ∃ number ∈ numbers, report.line = some (sourceLine lines number)

theorem blames_orLine {lines : List String} {error : LayoutError} {number : Nat}
    (kind : error.kind = .compile ∨ error.kind = .jump) :
    Blames lines [number] ((Report.ofCause error).orLine (sourceLine lines number)) := by
  have hinternal : Cause.kind error ≠ .internal := by
    intro h
    rw [show error.kind = .internal from h] at kind
    simp at kind
  rw [Report.orLine_ofCause hinternal]
  exact ⟨kind, number, List.mem_singleton_self _, rfl⟩

theorem Blames.mono {lines : List String} {numbers numbers' : List Nat}
    {report : Report LayoutError} (h : Blames lines numbers report)
    (hsub : ∀ n ∈ numbers, n ∈ numbers') : Blames lines numbers' report := by
  obtain ⟨hkind, n, hn, hline⟩ := h
  exact ⟨hkind, n, hsub n hn, hline⟩

variable (place : LabelId → Nat) (lines : List String) (layout : Layout)

theorem emits_append {instruction : Instruction} (h : instruction.Fits) :
    Emits place [instruction] [] [] layout
      ⟨layout.bytes ++ bytesOfWord instruction.word, layout.labels, layout.fixups⟩ where
  labels := .refl _
  length := List.length_append
  fits _ := by simpa using h
  sound hs f hf := by
    have := hs f hf
    rw [List.length_append]
    omega
  resolved hs _ := by
    have hcode : imageBytes [instruction] = bytesOfWord instruction.word := List.append_nil _
    rw [hcode]
    exact fillIn_append place hs _
  fixups f hf := hf
  lines f hf := .inl hf
  near _ _ o ho := by cases ho

theorem does_append (instruction : Instruction) :
    Does (append instruction) layout
      (fun _ after => Emits place [instruction] [] [] layout after) fun _ => ¬ instruction.Fits :=
  .of_append (emits_append place layout) fun _ h => h

theorem emits_jump (test : JumpTest) {register : UInt8} (h : register.toNat < 16)
    (target : LabelId) (line : Nat) :
    Emits place [.jump test register (UInt8.ofNat (place target))] [place target] [line] layout
      ⟨layout.bytes ++ bytesOfWord (Instruction.word (.jump test register 0)), layout.labels,
        layout.fixups ++ [⟨layout.bytes.length, target, line⟩]⟩ where
  labels := .refl _
  length := List.length_append
  fits _ := by simpa using fits_jump_iff.2 h
  sound hs f hf := by
    rw [List.length_append, show (bytesOfWord _).length = 2 from rfl]
    rcases List.mem_append.1 hf with hf | hf
    · have := hs f hf
      omega
    · rw [List.mem_singleton.1 hf]
      exact Nat.lt_succ_self _
  resolved hs _ := by
    -- The earlier operands are filled in as before, then the new one, in the last byte.
    have hlength : (fillIn place layout.fixups layout.bytes).length = layout.bytes.length :=
      length_fillIn place layout.fixups layout.bytes
    have hcode : imageBytes [.jump test register (UInt8.ofNat (place target))] =
        [UInt8.ofNat (16 * test.opcode.number + register.toNat), UInt8.ofNat (place target)] :=
      (List.append_nil _).trans (Instruction.bytesOfWord_jump test h _)
    have hlast : ∀ bytes, fillIn place (layout.fixups ++ [⟨layout.bytes.length, target, line⟩])
        bytes = (fillIn place layout.fixups bytes).set (layout.bytes.length + 1)
          (UInt8.ofNat (place target)) := by
      intro bytes
      simp only [fillIn, List.foldl_append, List.foldl_cons, List.foldl_nil]
    rw [hcode, resolved, hlast, fillIn_append place hs, Instruction.bytesOfWord_jump test h,
      List.set_append_right _ _ (by omega), hlength, Nat.add_sub_cancel_left]
    rfl
  fixups f hf := List.mem_append_left _ hf
  lines f hf := by
    rcases List.mem_append.1 hf with hf | hf
    · exact .inl hf
    · rw [List.mem_singleton.1 hf]
      exact .inr (List.mem_singleton_self _)
  near _ hfix o ho := by
    rw [List.mem_singleton.1 ho]
    exact hfix ⟨layout.bytes.length, target, line⟩
      (List.mem_append_right _ (List.mem_singleton_self _))

theorem does_jump (test : JumpTest) (register : UInt8) (target : LabelId) (line : Nat) :
    Does (jump test register target line) layout
      (fun _ after => Emits place [.jump test register (UInt8.ofNat (place target))]
        [place target] [line] layout after)
      fun _ => ¬ register.toNat < 16 :=
  .of_jump (fun h => emits_jump place layout test h target line) fun _ h => h

theorem does_place (label : LabelId) (line : Nat) :
    Does (Layout.place lines label line) layout
      (fun _ after => Emits place [] [] [] layout after ∧ (label < layout.labels.size →
        after.labels.offset? label = some layout.bytes.length))
      (Blames lines [line]) := by
  unfold Does
  cases hfree : layout.labels.offset? label with
  | some existing =>
    rw [place_of_placed hfree]
    exact blames_orLine (.inl rfl)
  | none =>
    rw [place_of_free hfree]
    have hext := Labels.extends_define layout.bytes.length hfree
    exact ⟨.of_labels hext, fun h => Labels.offset?_define_self _ _ h hfree⟩

theorem does_joinLabel :
    Does joinLabel layout
      (fun join after => Emits place [] [] [] layout after ∧ join < after.labels.size)
      fun _ => False := by
  have hext := Labels.extends_fresh layout.labels
    ("jump_" ++ Decimal.numeral layout.labels.size)
  refine ⟨Emits.of_labels hext, ?_⟩
  simp [Labels.size]

theorem does_jumpAll (tests : List JumpTest) (register : UInt8) (target : LabelId) (line : Nat) :
    Does (jumpAll tests register target line) layout
      (fun _ after => Emits place
        (tests.map fun test => .jump test register (UInt8.ofNat (place target)))
        (tests.map fun _ => place target) (tests.map fun _ => line) layout after)
      fun _ => ¬ register.toNat < 16 := by
  induction tests generalizing layout with
  | nil => exact Emits.refl place layout
  | cons test tests ih =>
    refine Does.bind (does_jump place layout test register target line) fun _ mid hmid => ?_
    exact (ih mid).imp (fun _ _ h => hmid.trans h) fun _ h => h

theorem does_jumpOtherwise (target : Target) (line : Nat) :
    Does (jumpOtherwise target line) layout
      (fun _ after => Emits place (target.jumpOtherwise place) [target.offset place 0] [line]
        layout after)
      fun _ => False := by
  cases target with
  | label id =>
    refine (does_jump place layout .equal 0 id line).imp (fun _ _ h => h) fun _ h => ?_
    exact h (by decide)
  | next =>
    refine (Emits.refl place layout).restate rfl (fun _ => rfl) ?_ (fun _ h => by cases h)
    intro _ _ o ho
    rw [List.mem_singleton.1 ho]
    exact Nat.zero_le _

/-- Every comparison makes a test, so what all of its tests have in common is there. -/
theorem mem_map_tests {α : Type} (comparison : Comparison) (value : α) :
    value ∈ comparison.tests.map fun _ => value := by
  cases comparison <;> exact List.mem_cons_self ..

theorem does_compare (comparison : Comparison) (register : UInt8) (accept reject : Target)
    (line : Nat) :
    Does (compare lines comparison register accept reject line) layout
      (fun _ after => Emits place
        ((Item.compare comparison register accept reject line).instructions place
          layout.bytes.length)
        ((Item.compare comparison register accept reject line).operands place layout.bytes.length)
        [line] layout after)
      fun report => Blames lines [line] report ∨ ¬ register.toNat < 16 := by
  have hlines : ∀ n ∈ (comparison.tests.map fun _ => line) ++ [line], n ∈ [line] := by
    intro n hn
    rcases List.mem_append.1 hn with hn | hn
    · obtain ⟨_, -, rfl⟩ := List.mem_map.1 hn
      exact List.mem_singleton_self _
    · exact hn
  unfold compare
  simp only [Item.instructions, Item.operands]
  generalize hotherwise : comparison.verdict.opposite.pick accept reject = otherwise
  cases htaken : comparison.verdict.pick accept reject with
  | label id =>
    refine Does.bind ((does_jumpAll place layout comparison.tests register id line).imp
      (fun _ _ h => h) fun _ h => .inr h) fun _ mid htests => ?_
    refine (does_jumpOtherwise place mid otherwise line).imp (fun _ after hjump => ?_)
      fun _ h => h.elim
    -- Without a label of its own, a comparison is its tests and the jump behind them.
    refine (htests.trans hjump).restate rfl (fun _ => rfl) (fun _ hnear o ho => ?_) hlines
    apply hnear
    rcases List.mem_cons.1 ho with rfl | ho
    · exact List.mem_append_left _ (mem_map_tests comparison _)
    · exact List.mem_append_right _ ho
  | next =>
    refine Does.bind ((does_joinLabel place layout).imp (fun _ _ h => h) fun _ h => h.elim)
      fun join start hjoin => ?_
    refine Does.bind ((does_jumpAll place start comparison.tests register join line).imp
      (fun _ _ h => h) fun _ h => .inr h) fun _ mid htests => ?_
    refine Does.bind ((does_jumpOtherwise place mid otherwise line).imp (fun _ _ h => h)
      fun _ h => h.elim) fun _ last hjump => ?_
    refine (does_place place lines last join line).imp (fun _ after hplace => ?_) fun _ h => .inl h
    -- The join label is placed where the comparison ends.
    have hall := ((hjoin.1.trans htests).trans hjump).trans hplace.1
    -- The place of that label, in the bytes so far and in the table reached.
    have hend : last.bytes.length = layout.bytes.length +
        (Item.compare comparison register accept reject line).size := by
      have hlength := ((hjoin.1.trans htests).trans hjump).length
      rw [hlength, Item.size, ← length_instructions place layout.bytes.length]
      simp only [Item.instructions, hotherwise, List.nil_append, List.length_append,
        List.length_map]
    have hafter : after.labels.Consistent place → place join = layout.bytes.length +
        (Item.compare comparison register accept reject line).size := by
      intro hconsistent
      have hlt : join < last.labels.size :=
        Nat.lt_of_lt_of_le hjoin.2 (htests.trans hjump).labels.size_le
      rw [hconsistent join _ (hplace.2 hlt), hend]
    refine hall.restate ?_ (fun hconsistent => ?_) (fun hconsistent hnear o ho => ?_) ?_
    · simp
    · simp [Target.offset, hafter hconsistent]
    · apply hnear
      simp only [List.nil_append, List.append_nil]
      rcases List.mem_cons.1 ho with rfl | ho
      · rw [Target.offset, ← hafter hconsistent]
        exact List.mem_append_left _ (mem_map_tests comparison _)
      · exact List.mem_append_right _ ho
    · simpa using hlines

theorem does_call (main : LabelId) (line : Nat) :
    Does (call lines main line) layout
      (fun _ after => Emits place ((Item.call main line).instructions place layout.bytes.length)
        ((Item.call main line).operands place layout.bytes.length) [line] layout after)
      (Blames lines [line]) := by
  unfold call
  refine Does.get ?_
  by_cases hback : layout.bytes.length + 6 > 255
  · simp only [if_pos hback]
    exact blames_orLine (.inl rfl)
  · simp only [if_neg hback]
    refine Does.bind ((does_append place layout _).imp (fun _ _ h => h) fun _ h => ?_)
      fun _ loaded hload => ?_
    · simp [Instruction.Fits, Instruction.nibbles] at h
    refine Does.bind ((does_append place loaded _).imp (fun _ _ h => h) fun _ h => ?_)
      fun _ pushed hpush => ?_
    · exact absurd (by decide) h
    refine (does_jump place pushed .equal 0 main line).imp (fun _ after hjump => ?_) fun _ h => ?_
    · refine ((hload.trans hpush).trans hjump).restate rfl (fun _ => rfl) (fun _ hnear o ho => ?_)
        fun _ h => h
      rcases List.mem_cons.1 ho with rfl | ho
      · exact Nat.le_of_not_lt hback
      · exact hnear o ho
    · exact absurd (by decide) h

/-! ## Items -/

/-- Laying out an item appends its assembled code, and a label is placed where the code ends. -/
theorem does_lower (item : Item) :
    Does (lower lines item) layout
      (fun _ after => Emits place (item.instructions place layout.bytes.length)
          (item.operands place layout.bytes.length) item.lines layout after ∧
        ∀ label line, item = .label label line → label < layout.labels.size →
          after.labels.offset? label = some layout.bytes.length)
      fun report => Blames lines item.lines report ∨ ¬ item.Fits := by
  -- Only a label item says more than that it emits.
  have hother : ∀ ok : Layout → Prop, (∀ label line, item ≠ .label label line) →
      ∀ after, ok after → ok after ∧ ∀ label line, item = .label label line →
        label < layout.labels.size → after.labels.offset? label = some layout.bytes.length :=
    fun ok hne after h => ⟨h, fun label line heq => absurd heq (hne label line)⟩
  cases item with
  | label label line =>
    refine (does_place place lines layout label line).imp (fun _ after h => ?_) fun _ h => .inl h
    have hemits : Emits place [] [] [line] layout after :=
      h.1.restate rfl (fun _ => rfl) (fun _ hnear => hnear) (by simp)
    refine ⟨hemits, ?_⟩
    rintro _ _ ⟨rfl, rfl⟩ hlt
    exact h.2 hlt
  | instruction instruction =>
    exact (does_append place layout instruction).imp (fun _ => hother _ (by simp)) fun _ h => .inr h
  | jump test register target line =>
    exact (does_jump place layout test register target line).imp (fun _ => hother _ (by simp))
      fun _ h => .inr h
  | goto target line =>
    exact (does_jump place layout .equal 0 target line).imp (fun _ => hother _ (by simp))
      fun _ h => absurd (by decide) h
  | compare comparison register accept reject line =>
    exact (does_compare place lines layout comparison register accept reject line).imp
      (fun _ => hother _ (by simp)) fun _ h => h
  | call main line =>
    exact (does_call place lines layout main line).imp (fun _ => hother _ (by simp))
      fun _ h => .inl h
  | ret =>
    exact (does_append place layout (.move (.special .stack) (.special .programCounter))).imp
      (fun _ => hother _ (by simp)) fun _ h => absurd (by decide) h
  | halt =>
    exact (does_append place layout .halt).imp (fun _ => hother _ (by simp))
      fun _ h => absurd (by decide) h

/-- Laying out items appends their assembled code, and every label of theirs is at its place. -/
theorem does_lowerAll (items : List Item) :
    Does (lowerAll lines items) layout
      (fun _ after => Emits place (assembleFrom place layout.bytes.length items)
          (operandsFrom place layout.bytes.length items) (items.flatMap Item.lines) layout after ∧
        ∀ index label line, items[index]? = some (.label label line) →
          label < layout.labels.size →
          after.labels.offset? label = some (layout.bytes.length + itemOffset items index))
      fun report => Blames lines (items.flatMap Item.lines) report ∨ ∃ item ∈ items, ¬ item.Fits := by
  induction items generalizing layout with
  | nil => exact ⟨Emits.refl place layout, fun index label line h => by simp at h⟩
  | cons item items ih =>
    refine Does.bind ((does_lower place lines layout item).imp (fun _ _ h => h) ?_)
      fun _ mid hmid => ?_
    · rintro report (h | h)
      · exact .inl (h.mono fun n hn => List.mem_append_left _ hn)
      · exact .inr ⟨item, List.mem_cons_self .., h⟩
    have hlength : mid.bytes.length = layout.bytes.length + item.size := by
      rw [hmid.1.length, length_instructions]
      rfl
    refine (ih mid).imp (fun _ after h => ?_) ?_
    · rw [hlength] at h
      refine ⟨hmid.1.trans h.1, fun index label line hitem hlt => ?_⟩
      cases index with
      | zero =>
        have hoffset := hmid.2 label line (by simpa using hitem) hlt
        exact h.1.labels.offset label _ hoffset
      | succ index =>
        have hlt := Nat.lt_of_lt_of_le hlt hmid.1.labels.size_le
        rw [itemOffset_cons_succ, ← Nat.add_assoc]
        exact h.2 index label line (by simpa using hitem) hlt
    · rintro report (h | ⟨other, hmem, h⟩)
      · exact .inl (h.mono fun n hn => List.mem_append_right _ hn)
      · exact .inr ⟨other, List.mem_cons_of_mem _ hmem, h⟩

end Layout

/-! ## Filling in -/

/-- Patching fills in the places of all targets, unless one of them has none in reach. -/
theorem patchAll_spec (labels : Labels) (lines : List String) (fixups : List Fixup)
    (bytes : List UInt8) (inside : ∀ fixup ∈ fixups, fixup.offset + 1 < bytes.length) :
    match patchAll labels lines fixups bytes with
    | (.ok (), patched) => patched = fillIn labels.places fixups bytes ∧
        ∀ fixup ∈ fixups, labels.places fixup.target ≤ 255
    | (.error report, _) => Layout.Blames lines (fixups.map Fixup.line) report := by
  induction fixups generalizing bytes with
  | nil => exact ⟨rfl, fun fixup h => by cases h⟩
  | cons fixup fixups ih =>
    have hinside := inside fixup (List.mem_cons_self ..)
    have hrest := fun f hf => inside f (List.mem_cons_of_mem _ hf)
    have hhead : ∀ n ∈ [fixup.line], n ∈ (fixup :: fixups).map Fixup.line := by simp
    unfold patchAll Fixup.patch
    cases hoffset : labels.offset? fixup.target with
    | none => exact (Layout.blames_orLine (.inr rfl)).mono hhead
    | some offset =>
      simp only
      by_cases hfar : offset > 255
      · rw [if_pos hfar]
        exact (Layout.blames_orLine (.inl rfl)).mono hhead
      · rw [if_neg hfar, if_pos hinside]
        have hplace : labels.places fixup.target = offset := by
          rw [Labels.places, hoffset]
          rfl
        -- Patching keeps the number of bytes, so the operands of the others are still inside.
        have hih := ih (bytes.set (fixup.offset + 1) (UInt8.ofNat offset)) (by simpa using hrest)
        revert hih
        simp only
        cases patchAll labels lines fixups (bytes.set (fixup.offset + 1) (UInt8.ofNat offset)) with
        | mk result patched =>
          cases result with
          | ok =>
            rintro ⟨rfl, hnear⟩
            refine ⟨by simp only [fillIn, List.foldl_cons, hplace], fun f hf => ?_⟩
            rcases List.mem_cons.1 hf with rfl | hf
            · rw [hplace]
              exact Nat.le_of_not_lt hfar
            · exact hnear f hf
          | error report =>
            exact fun h => Layout.Blames.mono h fun n hn => List.mem_cons_of_mem _ hn

/-- Bytes that are the code of items, with every label at its place and every place in reach. -/
structure Assembled (items : List Item) (size : Nat) (place : LabelId → Nat)
    (bytes : List UInt8) : Prop where
  bytes_eq : bytes = imageBytes (assembleFrom place 0 items)
  fits : ∀ instruction ∈ assembleFrom place 0 items, instruction.Fits
  near : ∀ operand ∈ operandsFrom place 0 items, operand ≤ 255
  /-- Labels whose number is below `size` are where their items are. -/
  placed : ∀ index label line, items[index]? = some (.label label line) → label < size →
    place label = itemOffset items index

/-- Items that are laid out and patched without a failure give the code assembled directly. -/
theorem assembled_of_layout {labels : Labels} {lines : List String} {items : List Item}
    {layout : Layout} {bytes : List UInt8}
    (hlower : (Layout.lowerAll lines items).run (.empty labels) = .ok () layout)
    (hpatch : patchAll layout.labels lines layout.fixups layout.bytes = (.ok (), bytes)) :
    Assembled items labels.size layout.labels.places bytes := by
  have hlowered := Layout.does_lowerAll layout.labels.places lines (.empty labels) items
  unfold Layout.Does at hlowered
  rw [show Layout.lowerAll lines items (.empty labels) = .ok () layout from hlower] at hlowered
  obtain ⟨hemits, hlabels⟩ := hlowered
  have hconsistent := layout.labels.consistent_places
  have hsound := hemits.sound (Layout.sound_empty labels)
  have hpatched := patchAll_spec layout.labels lines layout.fixups layout.bytes hsound
  rw [hpatch] at hpatched
  obtain ⟨hbytes, hnear⟩ := hpatched
  exact {
    bytes_eq := hbytes.trans (hemits.resolved (Layout.sound_empty labels) hconsistent)
    fits := hemits.fits hconsistent
    near := hemits.near hconsistent hnear
    placed := fun index label line hitem hlt => by
      rw [hconsistent label _ (hlabels index label line hitem hlt)]
      exact Nat.zero_add _ }

end ByteBasic
