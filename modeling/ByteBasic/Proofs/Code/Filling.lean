import ByteBasic.Code.Resolve
import ByteBasic.Proofs.Code.Patching

/-!
# Patching up to the first fault

Patching goes through jumps in order and changes the bytes as it goes, so a jump that cannot be
patched leaves the work of those before it. What can go wrong with one jump is told by its target and
its offset alone: no byte decides it, so it is the same whatever was patched before
(`upTo_first_fault`).

**Recorded jumps.** They are patched exactly if each of them can be (`patchAll_eq_ok_iff`).

**Jumps from anywhere.** The offset of a jump is a word. Its operand has one as well, unless the
offset is the largest word and nothing comes after that; then, or if its target is no label of the
table, nothing is reported (`Jump.Stops`). For jumps as they are recorded both ways of patching are
the same (`resolve_eq_patchAll`).

**Theorem (`patched_up_to_the_first_fault`).** Any jumps over any bytes are patched exactly if each
of them can be; the last jump of a slot decides its byte, and no other byte changes. Otherwise the
report is on the first jump that cannot be patched, and the bytes are those patched up to it.
-/

namespace ByteBasic

/-! ## One after the other -/

/-- Work on items in order, each of which is done or ends the work, as its nature and the number of
bytes decide. -/
theorem upTo_first_fault {α β : Type} (run : List α → List UInt8 → β × List UInt8) {done : β}
    (fill : α → List UInt8 → List UInt8) (good : α → Prop) (bad : α → β → Prop) {size : Nat}
    (hnil : ∀ bytes, run [] bytes = (done, bytes))
    (hcons : ∀ item items bytes, bytes.length = size →
      (good item ∧ run (item :: items) bytes = run items (fill item bytes)) ∨
      ∃ stop, bad item stop ∧ run (item :: items) bytes = (stop, bytes))
    (hlength : ∀ item bytes, (fill item bytes).length = bytes.length)
    (items : List α) (bytes : List UInt8) (hsize : bytes.length = size) :
    ((∀ item ∈ items, good item) ∧
      run items bytes = (done, items.foldl (fun bytes item => fill item bytes) bytes)) ∨
    ∃ before item after stop, items = before ++ item :: after ∧
      (∀ earlier ∈ before, good earlier) ∧ bad item stop ∧
      run items bytes = (stop, before.foldl (fun bytes item => fill item bytes) bytes) := by
  induction items generalizing bytes with
  | nil => exact .inl ⟨fun _ h => (by cases h), hnil bytes⟩
  | cons first rest ih =>
    rcases hcons first rest bytes hsize with ⟨hfirst, hrun⟩ | ⟨stop, hbad, hrun⟩
    · -- The number of bytes stays the same, so the rest goes on as it would from the old bytes.
      have hrest := ih (fill first bytes) ((hlength first bytes).trans hsize)
      rw [hrun]
      rcases hrest with ⟨hall, hrest⟩ | ⟨before, item, after, stop, rfl, hbefore, hbad, hrest⟩
      · exact .inl ⟨List.forall_mem_cons.2 ⟨hfirst, hall⟩, hrest⟩
      · exact .inr ⟨first :: before, item, after, stop, rfl,
          List.forall_mem_cons.2 ⟨hfirst, hbefore⟩, hbad, hrest⟩
    · exact .inr ⟨[], first, rest, stop, rfl, fun _ h => (by cases h), hbad, hrun⟩

namespace Fixup

/-- The target has a place in reach, and the operand is among the bytes. -/
def Patchable (fixup : Fixup) (labels : Labels) (size : Nat) : Prop :=
  (∃ offset ≤ 255, labels.offset? fixup.target = some offset) ∧ fixup.offset + 1 < size

/-- A recorded jump is patched, or it cannot be and is reported. -/
theorem patch_cases (fixup : Fixup) (labels : Labels) (lines : List String) (bytes : List UInt8) :
    (fixup.Patchable labels bytes.length ∧ fixup.patch labels lines bytes =
      .ok (bytes.set (fixup.offset + 1) (UInt8.ofNat (labels.places fixup.target)))) ∨
    ∃ report, ¬ fixup.Patchable labels bytes.length ∧
      fixup.patch labels lines bytes = .error report := by
  unfold patch
  cases hoffset : labels.offset? fixup.target with
  | none =>
    refine .inr ⟨_, ?_, rfl⟩
    rintro ⟨⟨offset, -, hsome⟩, -⟩
    rw [hoffset] at hsome
    cases hsome
  | some offset =>
    have hplace : labels.places fixup.target = offset := labels.consistent_places _ _ hoffset
    simp only [hplace]
    by_cases hfar : offset > 255
    · refine .inr ⟨_, ?_, by rw [if_pos hfar]⟩
      rintro ⟨⟨other, hle, hsome⟩, -⟩
      rw [hoffset] at hsome
      cases hsome
      exact absurd hle (Nat.not_le_of_lt hfar)
    · by_cases hinside : fixup.offset + 1 < bytes.length
      · exact .inl ⟨⟨⟨offset, Nat.le_of_not_lt hfar, hoffset⟩, hinside⟩,
          by rw [if_neg hfar, if_pos hinside]⟩
      · exact .inr ⟨_, fun h => hinside h.2, by rw [if_neg hfar, if_neg hinside]⟩

end Fixup

section Recorded

variable {labels : Labels} {lines : List String} {fixups : List Fixup} {bytes : List UInt8}

/-- All recorded jumps are patched, or those before the first one that cannot be. -/
theorem patchAll_cases (labels : Labels) (lines : List String) (fixups : List Fixup)
    (bytes : List UInt8) :
    ((∀ fixup ∈ fixups, fixup.Patchable labels bytes.length) ∧
      patchAll labels lines fixups bytes = (.ok (), fillIn labels.places fixups bytes)) ∨
    ∃ before fixup after result, fixups = before ++ fixup :: after ∧
      (∀ earlier ∈ before, earlier.Patchable labels bytes.length) ∧
      (¬ fixup.Patchable labels bytes.length ∧ result ≠ .ok ()) ∧
      patchAll labels lines fixups bytes = (result, fillIn labels.places before bytes) := by
  refine upTo_first_fault (patchAll labels lines)
    (fun fixup bytes => bytes.set (fixup.offset + 1) (UInt8.ofNat (labels.places fixup.target)))
    (fun fixup => fixup.Patchable labels bytes.length)
    (fun fixup result => ¬ fixup.Patchable labels bytes.length ∧ result ≠ .ok ())
    (fun _ => rfl) (fun fixup rest bytes hsize => ?_) (fun _ _ => List.length_set ..) fixups bytes rfl
  rw [← hsize, patchAll]
  rcases fixup.patch_cases labels lines bytes with ⟨hgood, hpatch⟩ | ⟨report, hbad, hpatch⟩
  · exact .inl ⟨hgood, by rw [hpatch]⟩
  · exact .inr ⟨.error report, ⟨hbad, fun h => by cases h⟩, by rw [hpatch]⟩

theorem getElem?_fillIn_of_ne (place : LabelId → Nat) {index : Nat}
    (h : ∀ fixup ∈ fixups, index ≠ fixup.offset + 1) :
    (fillIn place fixups bytes)[index]? = bytes[index]? := by
  induction fixups generalizing bytes with
  | nil => rfl
  | cons fixup fixups ih =>
    refine (ih fun f hf => h f (List.mem_cons_of_mem _ hf)).trans ?_
    exact List.getElem?_set_ne (h fixup (List.mem_cons_self ..)).symm

theorem patchAll_eq_ok_iff : (patchAll labels lines fixups bytes).1 = .ok () ↔
    ∀ fixup ∈ fixups, fixup.Patchable labels bytes.length := by
  rcases patchAll_cases labels lines fixups bytes with
    ⟨hall, hrun⟩ | ⟨before, fixup, after, result, rfl, -, ⟨hbad, herror⟩, hrun⟩
  · rw [hrun]
    exact iff_of_true rfl hall
  · rw [hrun]
    exact iff_of_false herror fun h => hbad (h fixup (by simp))

/-- Whether it succeeds or not, patching changes operand bytes only. -/
theorem patchAll_others (labels : Labels) (lines : List String) (fixups : List Fixup)
    (bytes : List UInt8) :
    (patchAll labels lines fixups bytes).2.length = bytes.length ∧
      ∀ index, (∀ fixup ∈ fixups, index ≠ fixup.offset + 1) →
        (patchAll labels lines fixups bytes).2[index]? = bytes[index]? := by
  rcases patchAll_cases labels lines fixups bytes with
    ⟨-, hrun⟩ | ⟨before, fixup, after, result, rfl, -, -, hrun⟩
  · rw [hrun]
    exact ⟨length_fillIn .., fun _ => getElem?_fillIn_of_ne _⟩
  · rw [hrun]
    refine ⟨length_fillIn .., fun index h => getElem?_fillIn_of_ne _ fun other hother => ?_⟩
    exact h other (List.mem_append_left _ hother)

end Recorded

/-! ## Jumps from anywhere -/

namespace Jump

/-- The target has a place in reach, and the operand is among the bytes. -/
def Patchable (mode : Overflow) (jump : Jump) (labels : Labels) (size : Nat) : Prop :=
  (∃ offset ≤ 255, labels.offset? jump.target = some offset) ∧
    ∃ operand < size, jump.operand? mode = some operand

/-- What is reported of a jump that cannot be patched. -/
inductive Fails (mode : Overflow) (jump : Jump) (labels : Labels) (lines : List String)
    (size : Nat) : Report LayoutError → Prop
  | unresolved (known : jump.target < labels.size)
      (unplaced : labels.offset? jump.target = none) :
      Fails mode jump labels lines size
        ⟨.unresolvedJump (labels.name jump.target), some (sourceLine lines jump.line)⟩
  | distant (offset : Nat) (placed : labels.offset? jump.target = some offset)
      (far : 255 < offset) :
      Fails mode jump labels lines size
        ⟨.distantJump (labels.name jump.target) offset, some (sourceLine lines jump.line)⟩
  | outside (offset operand : Nat) (placed : labels.offset? jump.target = some offset)
      (near : offset ≤ 255) (exists_operand : jump.operand? mode = some operand)
      (outside : size ≤ operand) :
      Fails mode jump labels lines size ⟨.outsideProgram jump.offset.toNat, none⟩

/-- A jump of which nothing is reported although it cannot be patched. -/
inductive Stops (mode : Overflow) (jump : Jump) (labels : Labels) : Prop
  | unknown (unknown : labels.size ≤ jump.target)
  | overflow (offset : Nat) (placed : labels.offset? jump.target = some offset)
      (near : offset ≤ 255) (largest : jump.operand? mode = none)

/-- Puts the place of the target into the operand. -/
def fill (mode : Overflow) (labels : Labels) (jump : Jump) (bytes : List UInt8) : List UInt8 :=
  bytes.set ((jump.operand? mode).getD bytes.length) (UInt8.ofNat (labels.places jump.target))

variable {mode : Overflow} {jump : Jump} {labels : Labels} {lines : List String} {size : Nat}
  {report : Report LayoutError}

/-- Below the largest word, the operand is right behind the offset. -/
theorem operand?_of_lt (h : jump.offset.toNat + 1 < UInt64.size) :
    jump.operand? mode = some (jump.offset.toNat + 1) := by
  cases mode with
  | stops => exact if_pos h
  | wraps =>
    have hsum : (jump.offset + 1).toNat = jump.offset.toNat + 1 := by
      rw [UInt64.toNat_add]
      exact Nat.mod_eq_of_lt h
    exact congrArg some hsum

theorem lt_size_of_placed {id : LabelId} {offset : Nat} (h : labels.offset? id = some offset) :
    id < labels.size := by
  obtain ⟨label, hlabel, -⟩ := Option.bind_eq_some_iff.1 h
  exact (List.getElem?_eq_some_iff.1 hlabel).1

theorem Fails.not_patchable (h : jump.Fails mode labels lines size report) :
    ¬ jump.Patchable mode labels size := by
  rintro ⟨⟨offset, hle, hoffset⟩, operand, hlt, hoperand⟩
  cases h with
  | unresolved known unplaced =>
    rw [unplaced] at hoffset
    cases hoffset
  | distant other placed far =>
    rw [placed] at hoffset
    cases hoffset
    exact absurd hle (Nat.not_le_of_lt far)
  | outside other operand' placed near hoperand' outside =>
    rw [hoperand'] at hoperand
    cases hoperand
    exact absurd hlt (Nat.not_lt_of_le outside)

theorem Stops.not_patchable (h : jump.Stops mode labels) : ¬ jump.Patchable mode labels size := by
  rintro ⟨⟨offset, -, hoffset⟩, operand, -, hoperand⟩
  cases h with
  | unknown unknown => exact absurd (lt_size_of_placed hoffset) (Nat.not_lt_of_le unknown)
  | overflow other placed near largest =>
    rw [largest] at hoperand
    cases hoperand

theorem length_fill (jump : Jump) (bytes : List UInt8) :
    (jump.fill mode labels bytes).length = bytes.length :=
  List.length_set ..

theorem fill_eq {operand : Nat} (h : jump.operand? mode = some operand) (bytes : List UInt8) :
    jump.fill mode labels bytes =
      bytes.set operand (UInt8.ofNat (labels.places jump.target)) := by
  rw [fill, h, Option.getD_some]

theorem getElem?_fill_of_ne {index : Nat} (h : jump.operand? mode ≠ some index)
    (bytes : List UInt8) : (jump.fill mode labels bytes)[index]? = bytes[index]? := by
  cases hoperand : jump.operand? mode with
  | none => rw [fill, hoperand, Option.getD_none, List.set_eq_of_length_le (Nat.le_refl _)]
  | some operand =>
    rw [fill_eq hoperand]
    refine List.getElem?_set_ne fun heq => h ?_
    rw [hoperand, heq]

/-- What can become of a jump over some bytes. -/
inductive Outcome (mode : Overflow) (jump : Jump) (labels : Labels) (lines : List String)
    (bytes : List UInt8) : Option (Except (Report LayoutError) (List UInt8)) → Prop
  | patched (patchable : jump.Patchable mode labels bytes.length) :
      Outcome mode jump labels lines bytes (some (.ok (jump.fill mode labels bytes)))
  | failed (report : Report LayoutError)
      (fails : jump.Fails mode labels lines bytes.length report) :
      Outcome mode jump labels lines bytes (some (.error report))
  | stopped (stops : jump.Stops mode labels) : Outcome mode jump labels lines bytes none

/-- A jump is patched, or it is reported, or there is no outcome. -/
theorem outcome_patchAt? (mode : Overflow) (jump : Jump) (labels : Labels) (lines : List String)
    (bytes : List UInt8) : jump.Outcome mode labels lines bytes
      (jump.fixup.patchAt? (jump.operand? mode) labels lines bytes) := by
  unfold Fixup.patchAt?
  cases hlabel : labels.entries[jump.target]? with
  | none =>
    simp only [fixup, hlabel]
    exact .stopped (.unknown (List.getElem?_eq_none_iff.1 hlabel))
  | some label =>
    -- The label exists, so its name and its place are those of the table.
    have hknown : jump.target < labels.size := (List.getElem?_eq_some_iff.1 hlabel).1
    have hname : label.name = labels.name jump.target := by rw [Labels.name, hlabel]; rfl
    have hoffset : labels.offset? jump.target = label.offset := by
      rw [Labels.offset?, hlabel, Option.bind_some]
    simp only [fixup, hlabel, Option.bind_eq_bind, Option.bind_some, hname]
    cases hplaced : label.offset with
    | none =>
      simp only
      rw [Report.orLine_ofCause fun h => by cases h]
      exact .failed _ (.unresolved hknown (hoffset.trans hplaced))
    | some offset =>
      have hplace := labels.consistent_places _ _ (hoffset.trans hplaced)
      simp only
      split
      next hfar =>
        rw [Report.orLine_ofCause fun h => by cases h]
        exact .failed _ (.distant offset (hoffset.trans hplaced) hfar)
      next hnear =>
        -- Only now does the operand matter.
        have hle : offset ≤ 255 := Nat.le_of_not_lt hnear
        cases hoperand : jump.operand? mode with
        | none => exact .stopped (.overflow offset (hoffset.trans hplaced) hle hoperand)
        | some operand =>
          simp only [Option.bind_some]
          split
          next hinside =>
            rw [← hplace, ← fill_eq hoperand]
            exact .patched ⟨⟨offset, hle, hoffset.trans hplaced⟩, operand, hinside, hoperand⟩
          next houtside =>
            exact .failed _ (.outside offset operand (hoffset.trans hplaced) hle hoperand
              (Nat.le_of_not_lt houtside))

end Jump

variable {mode : Overflow} {labels : Labels} {lines : List String} {jumps : List Jump}
  {bytes : List UInt8}

def fillAll (mode : Overflow) (labels : Labels) (jumps : List Jump) (bytes : List UInt8) :
    List UInt8 :=
  jumps.foldl (fun bytes jump => jump.fill mode labels bytes) bytes

/-- What ends the work at a jump. -/
inductive Jump.Ends (mode : Overflow) (jump : Jump) (labels : Labels) (lines : List String)
    (size : Nat) : Option (Except (Report LayoutError) Unit) → Prop
  | failed (report : Report LayoutError) (fails : jump.Fails mode labels lines size report) :
      Ends mode jump labels lines size (some (.error report))
  | stopped (stops : jump.Stops mode labels) : Ends mode jump labels lines size none

/-- All jumps are patched, or those before the first one that cannot be. -/
theorem resolve_cases (mode : Overflow) (labels : Labels) (lines : List String)
    (jumps : List Jump) (bytes : List UInt8) :
    ((∀ jump ∈ jumps, jump.Patchable mode labels bytes.length) ∧
      resolve mode labels lines jumps bytes =
        (some (.ok ()), fillAll mode labels jumps bytes)) ∨
    ∃ before jump after result, jumps = before ++ jump :: after ∧
      (∀ earlier ∈ before, earlier.Patchable mode labels bytes.length) ∧
      jump.Ends mode labels lines bytes.length result ∧
      resolve mode labels lines jumps bytes = (result, fillAll mode labels before bytes) := by
  refine upTo_first_fault (resolve mode labels lines) (fun jump => jump.fill mode labels)
    (fun jump => jump.Patchable mode labels bytes.length)
    (fun jump => jump.Ends mode labels lines bytes.length) (fun _ => rfl)
    (fun jump rest bytes hsize => ?_) Jump.length_fill jumps bytes rfl
  rw [← hsize, resolve, patchEach]
  have houtcome := jump.outcome_patchAt? mode labels lines bytes
  generalize jump.fixup.patchAt? (jump.operand? mode) labels lines bytes = outcome at houtcome ⊢
  cases houtcome with
  | patched patchable => exact .inl ⟨patchable, rfl⟩
  | failed report fails => exact .inr ⟨_, .failed report fails, rfl⟩
  | stopped stops => exact .inr ⟨_, .stopped stops, rfl⟩

theorem Jump.Ends.not_patchable {jump : Jump} {size : Nat}
    {result : Option (Except (Report LayoutError) Unit)}
    (h : jump.Ends mode labels lines size result) : ¬ jump.Patchable mode labels size := by
  cases h with
  | failed report fails => exact fails.not_patchable
  | stopped stops => exact stops.not_patchable

theorem resolve_of_patchable (h : ∀ jump ∈ jumps, jump.Patchable mode labels bytes.length) :
    resolve mode labels lines jumps bytes =
      (some (.ok ()), fillAll mode labels jumps bytes) := by
  rcases resolve_cases mode labels lines jumps bytes with
    ⟨-, hrun⟩ | ⟨before, jump, after, result, rfl, -, hends, -⟩
  · exact hrun
  · exact absurd (h jump (by simp)) hends.not_patchable

theorem resolve_eq_ok_iff : (resolve mode labels lines jumps bytes).1 = some (.ok ()) ↔
    ∀ jump ∈ jumps, jump.Patchable mode labels bytes.length := by
  rcases resolve_cases mode labels lines jumps bytes with
    ⟨hall, hrun⟩ | ⟨before, jump, after, result, rfl, -, hends, hrun⟩
  · rw [hrun]
    exact iff_of_true rfl hall
  · rw [hrun]
    refine iff_of_false (fun hok => ?_) fun h => hends.not_patchable (h jump (by simp))
    cases hends <;> cases hok

theorem length_fillAll (jumps : List Jump) (bytes : List UInt8) :
    (fillAll mode labels jumps bytes).length = bytes.length := by
  induction jumps generalizing bytes with
  | nil => rfl
  | cons jump jumps ih => exact (ih _).trans (jump.length_fill bytes)

theorem getElem?_fillAll_of_ne {index : Nat} (h : ∀ jump ∈ jumps, jump.operand? mode ≠ some index) :
    (fillAll mode labels jumps bytes)[index]? = bytes[index]? := by
  induction jumps generalizing bytes with
  | nil => rfl
  | cons jump jumps ih =>
    refine (ih fun j hj => h j (List.mem_cons_of_mem _ hj)).trans ?_
    exact Jump.getElem?_fill_of_ne (h jump (List.mem_cons_self ..)) bytes

/-- The last jump of a slot decides its byte. -/
theorem getElem?_fillAll_last (before : List Jump) {jump : Jump} {after : List Jump}
    {operand : Nat} (hoperand : jump.operand? mode = some operand)
    (last : ∀ later ∈ after, later.operand? mode ≠ jump.operand? mode)
    (inside : operand < bytes.length) :
    (fillAll mode labels (before ++ jump :: after) bytes)[operand]? =
      some (UInt8.ofNat (labels.places jump.target)) := by
  have hafter : ∀ later ∈ after, later.operand? mode ≠ some operand :=
    fun later hlater => hoperand ▸ last later hlater
  have hsplit : fillAll mode labels (before ++ jump :: after) bytes =
      fillAll mode labels after (jump.fill mode labels (fillAll mode labels before bytes)) := by
    simp only [fillAll, List.foldl_append, List.foldl_cons]
  rw [hsplit, getElem?_fillAll_of_ne hafter, Jump.fill_eq hoperand]
  exact List.getElem?_set_self (by rwa [length_fillAll])

/-- Whether it succeeds or not, resolving changes operand bytes only. -/
theorem resolve_others (mode : Overflow) (labels : Labels) (lines : List String)
    (jumps : List Jump) (bytes : List UInt8) :
    (resolve mode labels lines jumps bytes).2.length = bytes.length ∧
      ∀ index, (∀ jump ∈ jumps, jump.operand? mode ≠ some index) →
        (resolve mode labels lines jumps bytes).2[index]? = bytes[index]? := by
  rcases resolve_cases mode labels lines jumps bytes with
    ⟨-, hrun⟩ | ⟨before, jump, after, result, rfl, -, -, hrun⟩
  · rw [hrun]
    exact ⟨length_fillAll .., fun _ => getElem?_fillAll_of_ne⟩
  · rw [hrun]
    refine ⟨length_fillAll .., fun index h => getElem?_fillAll_of_ne fun other hother => ?_⟩
    exact h other (List.mem_append_left _ hother)

/-- Resolving ends before its time at the first jump that cannot be patched, with the bytes that
patching the jumps before it gives. -/
theorem resolve_ends {result : Option (Except (Report LayoutError) Unit)}
    (hne : result ≠ some (.ok ())) (hresult : (resolve mode labels lines jumps bytes).1 = result) :
    ∃ before jump after, jumps = before ++ jump :: after ∧
      (∀ earlier ∈ before, earlier.Patchable mode labels bytes.length) ∧
      jump.Ends mode labels lines bytes.length result ∧
      resolve mode labels lines before bytes =
        (some (.ok ()), (resolve mode labels lines jumps bytes).2) := by
  rcases resolve_cases mode labels lines jumps bytes with
    ⟨-, hrun⟩ | ⟨before, jump, after, other, hsplit, hbefore, hends, hrun⟩
  · rw [hrun] at hresult
    exact absurd hresult.symm hne
  · have hother : other = result := by rw [hrun] at hresult; exact hresult
    rw [hother] at hends
    refine ⟨before, jump, after, hsplit, hbefore, hends, ?_⟩
    rw [resolve_of_patchable hbefore, hrun]

/-- **Jumps are patched up to the first fault.** Patching succeeds exactly if every target has a
place up to 255 and every operand is among the bytes. It never changes the number of bytes, nor a
byte that is no operand. After a success, each operand is the place of the last target that was to be
put there. After a failure, the report is on the first jump that cannot be patched, for want of a
place before its distance and for its distance before its operand, and the bytes are those that
patching the jumps before it gives. So are they where there is neither, which takes a target outside
the table or an offset that is the largest word; the operand of any other offset is right behind
it. -/
theorem patched_up_to_the_first_fault (mode : Overflow) (labels : Labels) (lines : List String)
    (jumps : List Jump) (bytes : List UInt8) :
    let outcome := resolve mode labels lines jumps bytes
    (outcome.1 = some (.ok ()) ↔ ∀ jump ∈ jumps, jump.Patchable mode labels bytes.length) ∧
    outcome.2.length = bytes.length ∧
    (∀ index, (∀ jump ∈ jumps, jump.operand? mode ≠ some index) →
      outcome.2[index]? = bytes[index]?) ∧
    (outcome.1 = some (.ok ()) → ∀ before jump after, jumps = before ++ jump :: after →
      (∀ later ∈ after, later.operand? mode ≠ jump.operand? mode) →
      ∃ operand byte, jump.operand? mode = some operand ∧ outcome.2[operand]? = some byte ∧
        labels.offset? jump.target = some byte.toNat) ∧
    (∀ report, outcome.1 = some (.error report) →
      ∃ before jump after, jumps = before ++ jump :: after ∧
        (∀ earlier ∈ before, earlier.Patchable mode labels bytes.length) ∧
        jump.Fails mode labels lines bytes.length report ∧
        resolve mode labels lines before bytes = (some (.ok ()), outcome.2)) ∧
    (outcome.1 = none →
      ∃ before jump after, jumps = before ++ jump :: after ∧
        (∀ earlier ∈ before, earlier.Patchable mode labels bytes.length) ∧
        jump.Stops mode labels ∧
        resolve mode labels lines before bytes = (some (.ok ()), outcome.2)) ∧
    ∀ jump : Jump, jump.offset.toNat + 1 < UInt64.size →
      jump.operand? mode = some (jump.offset.toNat + 1) := by
  intro outcome
  obtain ⟨hlength, hothers⟩ := resolve_others mode labels lines jumps bytes
  refine ⟨resolve_eq_ok_iff, hlength, hothers, fun hok => ?_, fun report herror => ?_,
    fun hnone => ?_, fun jump => Jump.operand?_of_lt⟩
  · rintro before jump after rfl hlast
    have hall := resolve_eq_ok_iff.1 hok
    obtain ⟨⟨offset, hle, hoffset⟩, operand, hinside, hoperand⟩ := hall jump (by simp)
    have hfilled : outcome.2 = fillAll mode labels (before ++ jump :: after) bytes :=
      congrArg Prod.snd (resolve_of_patchable hall)
    refine ⟨operand, UInt8.ofNat offset, hoperand, ?_, ?_⟩
    · rw [hfilled, getElem?_fillAll_last before hoperand hlast hinside,
        labels.consistent_places _ _ hoffset]
    · rw [hoffset, UInt8.toNat_ofNat', Nat.mod_eq_of_lt (Nat.lt_succ_of_le hle)]
  · obtain ⟨before, jump, after, hsplit, hbefore, hends, hrun⟩ :=
      resolve_ends (fun h => by cases h) herror
    cases hends with
    | failed _ fails => exact ⟨before, jump, after, hsplit, hbefore, fails, hrun⟩
  · obtain ⟨before, jump, after, hsplit, hbefore, hends, hrun⟩ :=
      resolve_ends (fun h => by cases h) hnone
    cases hends with
    | stopped stops => exact ⟨before, jump, after, hsplit, hbefore, stops, hrun⟩

/-- Two jumps share a slot, with another one between them. In a second list, a jump that is out of
reach and past the bytes comes before one without a place. In a third one, an offset is the largest
word. -/
theorem patched_up_to_the_first_fault_repeated :
    let labels : Labels := ⟨[⟨"near", true, some 2⟩, ⟨"edge", true, some 255⟩,
      ⟨"far", true, some 256⟩, ⟨"lost", true, none⟩]⟩
    let bytes : List UInt8 := [0xB0, 0, 0xB0, 7]
    let repeated : List Jump := [⟨0, 0, 1⟩, ⟨2, 0, 2⟩, ⟨0, 1, 3⟩]
    let distant : List Jump := [⟨2, 1, 1⟩, ⟨9, 2, 2⟩, ⟨0, 3, 3⟩]
    let largest : List Jump := [⟨2, 1, 1⟩, ⟨0xFFFFFFFFFFFFFFFF, 0, 2⟩]
    (resolve .stops labels [] repeated bytes).2.length = 4 ∧
    (∃ operand byte, some 1 = some operand ∧
      (resolve .stops labels [] repeated bytes).2[operand]? = some byte ∧
      some 255 = some byte.toNat) ∧
    (∃ before jump after, distant = before ++ jump :: after ∧
      (∀ earlier ∈ before, earlier.Patchable .stops labels 4) ∧
      jump.Fails .stops labels [] 4 ⟨.distantJump "far" 256, some ⟨2, ""⟩⟩ ∧
      resolve .stops labels [] before bytes = (some (.ok ()), [0xB0, 0, 0xB0, 255])) ∧
    (∃ before jump after, largest = before ++ jump :: after ∧
      (∀ earlier ∈ before, earlier.Patchable .stops labels 4) ∧ jump.Stops .stops labels ∧
      resolve .stops labels [] before bytes = (some (.ok ()), [0xB0, 0, 0xB0, 255])) ∧
    resolve .wraps labels [] largest bytes = (some (.ok ()), [2, 0, 0xB0, 255]) := by
  intro labels bytes repeated distant largest
  obtain ⟨-, hlength, -, hlast, -⟩ :=
    patched_up_to_the_first_fault .stops labels [] repeated bytes
  obtain ⟨-, -, -, -, hfails, -⟩ := patched_up_to_the_first_fault .stops labels [] distant bytes
  obtain ⟨-, -, -, -, -, hstops, -⟩ := patched_up_to_the_first_fault .stops labels [] largest bytes
  have hedge := hlast rfl [⟨0, 0, 1⟩, ⟨2, 0, 2⟩] ⟨0, 1, 3⟩ [] rfl fun _ h => (by cases h)
  exact ⟨hlength, hedge, hfails _ rfl, hstops rfl, rfl⟩

/-! ## Jumps as they are recorded -/

theorem Fixup.patchAt?_eq {fixup : Fixup} (known : fixup.target < labels.size)
    (bytes : List UInt8) : fixup.patchAt? (some (fixup.offset + 1)) labels lines bytes =
      some (fixup.patch labels lines bytes) := by
  have hlt : fixup.target < labels.entries.length := known
  have hlabel := List.getElem?_eq_getElem hlt
  unfold patchAt? patch Labels.offset? Labels.name
  simp only [hlabel, Option.bind_eq_bind, Option.bind_some, Option.map_some, Option.getD_some,
    Option.pure_def]
  cases labels.entries[fixup.target].offset with
  | none => rfl
  | some offset =>
    simp only
    split
    · rfl
    · split <;> rfl

/-- Items that are each patched like a recorded jump are patched like the recorded jumps. -/
theorem patchEach_eq_patchAll {α : Type} {patch? : α → List UInt8 →
      Option (Except (Report LayoutError) (List UInt8))} {fixup : α → Fixup} {items : List α}
    (h : ∀ item ∈ items, ∀ bytes, patch? item bytes =
      some ((fixup item).patch labels lines bytes)) (bytes : List UInt8) :
    patchEach patch? items bytes =
      (some (patchAll labels lines (items.map fixup) bytes).1,
        (patchAll labels lines (items.map fixup) bytes).2) := by
  induction items generalizing bytes with
  | nil => rfl
  | cons item items ih =>
    have hrest := ih fun other hother => h other (List.mem_cons_of_mem _ hother)
    rw [patchEach, h item (List.mem_cons_self ..), List.map_cons, patchAll]
    cases (fixup item).patch labels lines bytes with
    | error report => rfl
    | ok bytes => exact hrest bytes

/-- Jumps to labels of the table from below the largest word are patched like recorded jumps. -/
theorem resolve_eq_patchAll (h : ∀ jump ∈ jumps,
      jump.offset.toNat + 1 < UInt64.size ∧ jump.target < labels.size) (bytes : List UInt8) :
    resolve mode labels lines jumps bytes =
      (some (patchAll labels lines (jumps.map Jump.fixup) bytes).1,
        (patchAll labels lines (jumps.map Jump.fixup) bytes).2) := by
  refine patchEach_eq_patchAll (fun jump hjump bytes => ?_) bytes
  obtain ⟨hoffset, hknown⟩ := h jump hjump
  rw [Jump.operand?_of_lt hoffset]
  exact Fixup.patchAt?_eq hknown bytes

end ByteBasic
