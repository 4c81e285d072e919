import ByteBasic.Proofs.Attempts
import ByteBasic.Proofs.Code.Resolution

/-!
# Labels looked up by their numbers

Laying out once more, as attempts: placing a label looks it up, and so does filling in a jump to it. A
label that was never made has neither a place nor a name, and laying out comes to nothing.

**Theorems (`follows_lowerAll`, `patchAll?_eq`).** Items whose labels exist find them all, and are laid
out as they are when numbers are taken for granted. The jumps recorded on the way go to labels that
exist, so filling them in finds all it looks up as well.
-/

namespace ByteBasic

/-- An attempt at a step of laying out code. -/
abbrev LayoutAttempt := Attempt (Report LayoutError) Layout Empty

namespace Layout

variable {α β : Type}

/-- A step of laying out as an action, which puts out nothing. -/
def action (part : LayoutM α) : Action (Report LayoutError) Layout Empty α :=
  fun layout =>
    match part layout with
    | .ok a layout => ⟨.ok a, layout, []⟩
    | .error report layout => ⟨.error report, layout, []⟩

theorem action_bind (part : LayoutM α) (next : α → LayoutM β) :
    action (part >>= next) = action part >>= fun a => action (next a) := by
  refine Action.ext_run fun layout => ?_
  rw [Action.run_bind]
  change action (part >>= next) layout = (action part layout).andThen _
  simp only [action, Bind.bind, EStateM.bind]
  cases part layout with
  | ok a layout => rw [Outcome.andThen_ok_nil]; rfl
  | error report layout => rfl

theorem action_run_ok {part : LayoutM α} {before after : Layout} {a : α}
    (h : part.run before = .ok a after) : (action part).run before = ⟨.ok a, after, []⟩ := by
  simp only [Action.run, action, show part before = .ok a after from h]

theorem action_run_error {part : LayoutM α} {before after : Layout} {report : Report LayoutError}
    (h : part.run before = .error report after) :
    (action part).run before = ⟨.error report, after, []⟩ := by
  simp only [Action.run, action, show part before = .error report after from h]

/-! ## Placing labels -/

def place? (lines : List String) (label : LabelId) (line : Nat) : LayoutAttempt Unit := do
  let entry ← Attempt.look fun layout => layout.labels.entries[label]?
  match entry.offset with
  | some _ => Attempt.ofAction (action (failAt lines line (.duplicateLabel entry.name)))
  | none =>
    Attempt.modify fun layout =>
      { layout with
        labels := ⟨layout.labels.entries.modify label fun label =>
          { label with offset := some layout.bytes.length }⟩ }

def compare? (lines : List String) (comparison : Comparison) (register : UInt8)
    (accept reject : Target) (line : Nat) : LayoutAttempt Unit :=
  let otherwise := comparison.verdict.opposite.pick accept reject
  match comparison.verdict.pick accept reject with
  | .label label => do
    Attempt.ofAction (action (jumpAll comparison.tests register label line))
    Attempt.ofAction (action (jumpOtherwise otherwise line))
  | .next => do
    let join ← Attempt.ofAction (action joinLabel)
    Attempt.ofAction (action (jumpAll comparison.tests register join line))
    Attempt.ofAction (action (jumpOtherwise otherwise line))
    place? lines join line

def lower? (lines : List String) (item : Item) : LayoutAttempt Unit :=
  match item with
  | .label label line => place? lines label line
  | .compare comparison register accept reject line =>
    compare? lines comparison register accept reject line
  | item => Attempt.ofAction (action (lower lines item))

def lowerAll? (lines : List String) (items : List Item) : LayoutAttempt Unit :=
  items.forM (lower? lines)

/-! ## Finding all labels -/

variable {lines : List String} {layout : Layout}

/-- What a part is known to do, of an attempt at it that looks up nothing. -/
theorem follows_of_does {part : LayoutM α} {ok : α → Layout → Prop} {bad : Report LayoutError → Prop}
    (h : Does part layout ok bad) :
    (Attempt.ofAction (action part)).Follows (action part) layout ok := by
  refine .ofAction fun a ha => ?_
  unfold Does at h
  cases hpart : part.run layout with
  | ok value after =>
    rw [show part layout = .ok value after from hpart] at h
    rw [action_run_ok hpart] at ha ⊢
    cases ha
    exact h
  | error report after =>
    rw [action_run_error hpart] at ha
    cases ha

theorem follows_place {label : LabelId} (hlabel : label < layout.labels.size) (line : Nat) :
    (place? lines label line).Follows (action (place lines label line)) layout
      fun _ after => layout.labels.size ≤ after.labels.size := by
  have hfind : layout.labels.entries[label]? = some layout.labels.entries[label] :=
    List.getElem?_eq_getElem hlabel
  have hoffset : layout.labels.offset? label = layout.labels.entries[label].offset := by
    rw [Labels.offset?, hfind, Option.bind_some]
  have hname : layout.labels.name label = layout.labels.entries[label].name := by
    rw [Labels.name, hfind, Option.map_some, Option.getD_some]
  refine .look hfind ?_
  rcases hfree : layout.labels.entries[label].offset with _ | existing
  · refine (Attempt.Follows.modify ?_).of_run_eq ?_
    · simp [Labels.size]
    · simp only [Action.run, action, place_of_free (hoffset.trans hfree), Labels.define,
        hoffset, hfree]
      rfl
  · have hplace : place lines label line layout = _ :=
      place_of_placed (hoffset.trans hfree) lines line
    rw [hname] at hplace
    refine Attempt.Follows.of_run_eq (.ofAction fun _ hok => ?_) ?_
    · cases hok
    · simp only [Action.run, action, hplace]

theorem follows_jumpAll (tests : List JumpTest) (register : UInt8) (target : LabelId) (line : Nat) :
    (Attempt.ofAction (action (jumpAll tests register target line))).Follows
      (action (jumpAll tests register target line)) layout
      fun _ after => after.labels = layout.labels :=
  follows_of_does ((jumps_jumpAll layout tests register target line).imp
    (fun _ _ h => h.2.labels) fun _ h => h)

theorem follows_jumpOtherwise (target : Target) (line : Nat) :
    (Attempt.ofAction (action (jumpOtherwise target line))).Follows
      (action (jumpOtherwise target line)) layout fun _ after => after.labels = layout.labels :=
  follows_of_does ((jumps_jumpOtherwise layout target line).imp (fun _ _ h => h.labels)
    fun _ h => h)

/-- The label of a comparison's own is made before it is placed. -/
theorem follows_compare (comparison : Comparison) (register : UInt8) (accept reject : Target)
    (line : Nat) :
    (compare? lines comparison register accept reject line).Follows
      (action (compare lines comparison register accept reject line)) layout
      fun _ after => layout.labels.size ≤ after.labels.size := by
  unfold compare? compare
  cases comparison.verdict.pick accept reject with
  | label id =>
    dsimp only
    rw [action_bind]
    refine (follows_jumpAll comparison.tests register id line).bind fun _ mid hmid => ?_
    refine (follows_jumpOtherwise _ line).imp fun _ after hafter => ?_
    exact Nat.le_of_eq (congrArg Labels.size (hafter.trans hmid).symm)
  | next =>
    dsimp only
    simp only [action_bind]
    have hjoin := follows_of_does (places_joinLabel layout)
    refine hjoin.bind fun join start ⟨hid, name, hstart⟩ => ?_
    refine (follows_jumpAll comparison.tests register join line).bind fun _ mid hmid => ?_
    refine (follows_jumpOtherwise _ line).bind fun _ last hlast => ?_
    have hlabels : last.labels = (layout.labels.fresh name).2 := by
      rw [hlast, hmid, hstart]
    have hsize : last.labels.size = layout.labels.size + 1 := by
      rw [hlabels]
      simp [Labels.fresh, Labels.add, Labels.size]
    refine (follows_place ?_ line).imp fun _ after hafter => ?_
    · rw [hid, hsize]
      exact Nat.lt_succ_self _
    · exact Nat.le_trans (Nat.le_of_lt (Nat.lt_of_lt_of_eq (Nat.lt_succ_self _) hsize.symm)) hafter

theorem follows_lower {item : Item} (hlabels : ∀ label ∈ item.labels, label < layout.labels.size) :
    (lower? lines item).Follows (action (lower lines item)) layout
      fun _ after => layout.labels.size ≤ after.labels.size := by
  have hother : (Attempt.ofAction (action (lower lines item))).Follows (action (lower lines item))
      layout fun _ after => layout.labels.size ≤ after.labels.size :=
    follows_of_does ((does_lower (fun _ => 0) lines layout item).imp
      (fun _ _ h => h.1.labels.size_le) fun _ h => h)
  cases item with
  | label label line => exact follows_place (hlabels label (List.mem_singleton_self _)) line
  | compare comparison register accept reject line =>
    exact follows_compare comparison register accept reject line
  | instruction _ => exact hother
  | jump _ _ _ _ => exact hother
  | goto _ _ => exact hother
  | call _ _ => exact hother
  | ret => exact hother
  | halt => exact hother

theorem follows_lowerAll {items : List Item}
    (hlabels : ∀ item ∈ items, ∀ label ∈ item.labels, label < layout.labels.size) :
    (lowerAll? lines items).Follows (action (lowerAll lines items)) layout
      fun _ after => layout.labels.size ≤ after.labels.size := by
  induction items generalizing layout with
  | nil => exact .pure (Nat.le_refl _)
  | cons item items ih =>
    have hcons : action (lowerAll lines (item :: items)) =
        action (lower lines item) >>= fun _ => action (lowerAll lines items) :=
      action_bind _ _
    rw [hcons]
    refine (follows_lower (hlabels item (List.mem_cons_self ..))).bind fun _ mid hmid => ?_
    refine (ih fun other hother label hlabel => ?_).imp fun _ _ h => Nat.le_trans hmid h
    exact Nat.lt_of_lt_of_le (hlabels other (List.mem_cons_of_mem _ hother) label hlabel) hmid

/-- Jumps recorded on the way go to labels that exist. -/
theorem known_fixups {items : List Item} {labels : Labels} {after : Layout}
    (hlabels : ∀ item ∈ items, ∀ label ∈ item.labels, label < labels.size)
    (hlower : (lowerAll lines items).run (.empty labels) = .ok () after) :
    ∀ fixup ∈ after.fixups, fixup.target < after.labels.size := by
  have hplaced : ∀ label ∈ placedLabels items, label < labels.size := by
    intro label hlabel
    obtain ⟨item, hitem, hlabel⟩ := List.mem_flatMap.1 hlabel
    obtain ⟨line, rfl⟩ := Item.mem_placed.1 hlabel
    exact hlabels _ hitem label (List.mem_singleton_self _)
  have hdoes := (does_lowerAll (fun _ => 0) lines (.empty labels) items).and
    (lowersAll lines (.empty labels) items hplaced)
  unfold Does at hdoes
  rw [show lowerAll lines items (.empty labels) = .ok () after from hlower] at hdoes
  obtain ⟨⟨hemits, -⟩, hlowers⟩ := hdoes
  obtain ⟨targets, ⟨-, fixups, hfixups, rfl, -⟩, -, -, htargets⟩ := hlowers.records
  intro fixup hfixup
  rw [hfixups] at hfixup
  rcases htargets _ (List.mem_map_of_mem hfixup) with ⟨item, hitem, htarget⟩ | ⟨_, _, -, -, hplaced⟩
  · exact Nat.lt_of_lt_of_le (hlabels item hitem _ (Item.mem_labels_of_targets htarget))
      hemits.labels.size_le
  · exact Labels.lt_size_of_offset hplaced

end Layout

/-! ## Filling in -/

def Fixup.patch? (fixup : Fixup) (labels : Labels) (lines : List String) (bytes : List UInt8) :
    Option (Except (Report LayoutError) (List UInt8)) :=
  fixup.patchAt? (some (fixup.offset + 1)) labels lines bytes

def patchAll? (labels : Labels) (lines : List String) :
    List Fixup → List UInt8 → Option (Except (Report LayoutError) Unit) × List UInt8 :=
  patchEach fun fixup => fixup.patch? labels lines

/-- Jumps to labels that exist find all of them. -/
theorem patchAll?_eq {labels : Labels} {fixups : List Fixup}
    (known : ∀ fixup ∈ fixups, fixup.target < labels.size) (lines : List String)
    (bytes : List UInt8) :
    patchAll? labels lines fixups bytes =
      (some (patchAll labels lines fixups bytes).1, (patchAll labels lines fixups bytes).2) := by
  have heach : ∀ fixup ∈ fixups, ∀ bytes, fixup.patch? labels lines bytes =
      some ((id fixup).patch labels lines bytes) :=
    fun fixup hfixup bytes => Fixup.patchAt?_eq (known fixup hfixup) bytes
  have hall := patchEach_eq_patchAll heach bytes
  rwa [List.map_id] at hall

end ByteBasic
