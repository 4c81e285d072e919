import ByteBasic.Proofs.Compiler.Labelling

/-!
# Labels are told apart and placed once

Calls come to a table of labels in any order: for the label of a name, for a new label whatever it
is called, or to place a label (`Call`). No call takes back what was known of a label before it
(`Keeps`), so what holds of a label when it is given out holds at all later times. Its offset is
that of the first call that places it (`firstPlace`). Only labels that the table has given out can
be placed (`Known`).

**Theorem (`labels_keep_names_and_places`).** Two calls for names give the same label just if the
names are the same, and a new label is given by no other call. At all later times a label has the
name that it was given out for and the offset that it was placed at first; placing it again fails
with that offset and changes nothing.

**Theorem (`Columns.run_isSome_iff`, `Columns.mirror_run`).** Names, offsets and numbers by name can
as well be kept in columns of their own. Some call then reads outside a column just if one is to
place a label that was not given out; until then the columns are those of the table, and give the
same answers.
-/

namespace ByteBasic

namespace Labels

variable {labels before middle after : Labels} {name : String} {id : LabelId} {label : Label}

/-! ## What placing a label leaves alone -/

/-- Placing a label changes nothing but its offset. -/
theorem map_entries_define {α : Type} (f : Label → α)
    (h : ∀ (label : Label) (offset : Option Nat), f { label with offset } = f label)
    (labels : Labels) (id : LabelId) (offset : Nat) :
    (labels.define id offset).2.entries.map f = labels.entries.map f := by
  unfold define
  split
  · rfl
  · refine List.ext_getElem? fun other => ?_
    rw [List.getElem?_map, List.getElem?_map, List.getElem?_modify]
    cases labels.entries[other]? with
    | none => rfl
    | some label =>
      by_cases heq : id = other
      · simp [heq, h]
      · simp [heq]

theorem map_offset_define (h : labels.offset? id = none) (offset : Nat) :
    (labels.define id offset).2.entries.map Label.offset =
      (labels.entries.map Label.offset).set id (some offset) := by
  simp only [define, h]
  refine List.ext_getElem? fun other => ?_
  rw [List.getElem?_map, List.getElem?_set', List.getElem?_map, List.getElem?_modify]
  by_cases heq : id = other
  · simp [heq, Function.comp_def]
  · simp [heq]

theorem find?_define (labels : Labels) (id : LabelId) (offset : Nat) (name : String) :
    (labels.define id offset).2.find? name = labels.find? name := by
  have hfind : ∀ labels : Labels, labels.find? name =
      (labels.entries.map fun label => label.isNamed && label.name == name).findIdx? (·) := by
    intro labels
    rw [List.findIdx?_map]
    rfl
  rw [hfind, hfind, map_entries_define _ fun _ _ => rfl]

theorem isNamed_define (labels : Labels) (id other : LabelId) (offset : Nat) :
    (labels.define id offset).2.isNamed other = labels.isNamed other := by
  unfold isNamed
  rw [← List.getElem?_map, ← List.getElem?_map, map_entries_define _ fun _ _ => rfl]

/-- A label keeps its first offset. -/
theorem offset?_define (labels : Labels) {id : LabelId} (h : id < labels.size) (offset : Nat)
    (other : LabelId) : (labels.define id offset).2.offset? other =
      (labels.offset? other).or (if id = other then some offset else none) := by
  by_cases heq : id = other
  · subst heq
    rw [if_pos rfl]
    cases hoffset : labels.offset? id with
    | none => exact offset?_define_self labels offset h hoffset
    | some existing =>
      rw [define_of_placed labels offset hoffset, hoffset]
      rfl
  · rw [if_neg heq, Option.or_none]
    exact offset?_define_of_ne labels offset (Ne.symm heq)

theorem offset?_add (labels : Labels) (hlabel : label.offset = none) (id : LabelId) :
    (labels.add label).2.offset? id = labels.offset? id := by
  unfold offset?
  rw [show (labels.add label).2.entries = labels.entries ++ [label] from rfl]
  rcases Nat.lt_trichotomy id labels.entries.length with hlt | rfl | hgt
  · rw [List.getElem?_append_left hlt]
  · simpa using hlabel
  · rw [List.getElem?_eq_none (Nat.le_of_lt hgt),
      List.getElem?_eq_none (by simpa using Nat.succ_le_of_lt hgt)]

/-- A label that is added is found under its name, unless an earlier one is. -/
theorem find?_add (labels : Labels) (label : Label) (name : String) :
    (labels.add label).2.find? name = (labels.find? name).or
      (if label.isNamed ∧ label.name = name then some labels.size else none) := by
  unfold Labels.find? add
  rw [List.findIdx?_append]
  by_cases h : label.isNamed ∧ label.name = name <;> simp [h, size]

/-! ## Calls -/

/-- A call on a table of labels. -/
inductive Call where
  | named (name : String)
  | fresh (name : String)
  | define (id : LabelId) (offset : Nat)
  deriving DecidableEq

namespace Call

/-- The table behind a call. -/
def perform (labels : Labels) : Call → Labels
  | named name => (labels.named name).2
  | fresh name => (labels.fresh name).2
  | define id offset => (labels.define id offset).2

/-- The label that a call gives out. -/
def gives? (labels : Labels) : Call → Option LabelId
  | named name => some (labels.named name).1
  | fresh name => some (labels.fresh name).1
  | define _ _ => none

/-- The name that a call asks a label for. -/
def name? : Call → Option String
  | named name => some name
  | fresh name => some name
  | define _ _ => none

/-- The label that a call is to place. -/
def target? : Call → Option LabelId
  | define id _ => some id
  | _ => none

/-- Where a call is to place a label, if it is to place that one. -/
def place? (id : LabelId) : Call → Option Nat
  | define other offset => if other = id then some offset else none
  | _ => none

end Call

/-- The offset of the first call that is to place a label. -/
def firstPlace (id : LabelId) (calls : List Call) : Option Nat :=
  calls.findSome? (Call.place? id)

/-- The table, empty at first, after so many of the calls. -/
def tableAt (calls : List Call) (time : Nat) : Labels :=
  (calls.take time).foldl Call.perform empty

/-- The label that the call at this time gives out. -/
def givenAt (calls : List Call) (time : Nat) : Option LabelId :=
  calls[time]?.bind (Call.gives? (tableAt calls time))

/-- Whenever a label is to be placed, an earlier call has given it out. -/
def Known (calls : List Call) : Prop :=
  ∀ time < calls.length, ∀ id ∈ calls[time]?.bind Call.target?,
    ∃ earlier < time, givenAt calls earlier = some id

instance (calls : List Call) : Decidable (Known calls) :=
  inferInstanceAs (Decidable (∀ time < calls.length, ∀ id ∈ calls[time]?.bind Call.target?,
    ∃ earlier < time, givenAt calls earlier = some id))

variable {calls : List Call} {call : Call} {time time' later : Nat}

/-- A call finds the label of a name, adds a label that has no place yet, or places a label. -/
theorem Call.cases_perform (labels : Labels) (call : Call) :
    (∃ name id, call = .named name ∧ labels.find? name = some id ∧
      call.gives? labels = some id ∧ call.perform labels = labels) ∨
    (∃ label : Label, label.offset = none ∧ (∀ id, call.place? id = none) ∧
      call.gives? labels = some labels.size ∧ call.perform labels = (labels.add label).2) ∨
    ∃ id offset, call = .define id offset := by
  cases call with
  | named name =>
    cases hfind : labels.find? name with
    | some id =>
      have hnamed : labels.named name = (id, labels) := by rw [Labels.named, hfind]
      exact .inl ⟨name, id, rfl, hfind, by rw [gives?, hnamed], by rw [perform, hnamed]⟩
    | none =>
      have hnamed : labels.named name = labels.add ⟨name, true, none⟩ := by rw [Labels.named, hfind]
      exact .inr (.inl ⟨⟨name, true, none⟩, rfl, fun _ => rfl, by rw [gives?, hnamed]; rfl,
        by rw [perform, hnamed]⟩)
  | fresh name => exact .inr (.inl ⟨⟨name, false, none⟩, rfl, fun _ => rfl, rfl, rfl⟩)
  | define id offset => exact .inr (.inr ⟨id, offset, rfl⟩)

theorem tableAt_succ (h : calls[time]? = some call) :
    tableAt calls (time + 1) = call.perform (tableAt calls time) := by
  simp [tableAt, List.take_add_one, h]

theorem tableAt_succ_of_none (h : calls[time]? = none) :
    tableAt calls (time + 1) = tableAt calls time := by
  simp [tableAt, List.take_add_one, h]

theorem givenAt_eq (h : calls[time]? = some call) :
    givenAt calls time = call.gives? (tableAt calls time) := by
  rw [givenAt, h]
  rfl

theorem exists_call_of_givenAt (h : givenAt calls time = some id) :
    ∃ call, calls[time]? = some call ∧ call.gives? (tableAt calls time) = some id :=
  Option.bind_eq_some_iff.1 h

/-! ## What calls keep -/

/-- What was known of labels is still so. -/
structure Keeps (before after : Labels) : Prop where
  size_le : before.size ≤ after.size
  name : ∀ id < before.size, after.name id = before.name id
  isNamed : ∀ id < before.size, after.isNamed id = before.isNamed id
  find? : ∀ name id, before.find? name = some id → after.find? name = some id
  offset? : ∀ id offset, before.offset? id = some offset → after.offset? id = some offset

theorem Keeps.refl (labels : Labels) : labels.Keeps labels :=
  ⟨Nat.le_refl _, fun _ _ => rfl, fun _ _ => rfl, fun _ _ h => h, fun _ _ h => h⟩

theorem Keeps.trans (h₁ : before.Keeps middle) (h₂ : middle.Keeps after) : before.Keeps after where
  size_le := Nat.le_trans h₁.size_le h₂.size_le
  name id hid := (h₂.name id (Nat.lt_of_lt_of_le hid h₁.size_le)).trans (h₁.name id hid)
  isNamed id hid := (h₂.isNamed id (Nat.lt_of_lt_of_le hid h₁.size_le)).trans (h₁.isNamed id hid)
  find? name id hfind := h₂.find? name id (h₁.find? name id hfind)
  offset? id offset hoffset := h₂.offset? id offset (h₁.offset? id offset hoffset)

theorem keeps_add (labels : Labels) (hlabel : label.offset = none) :
    labels.Keeps (labels.add label).2 where
  size_le := (grows_add labels label).size_le
  name _ hid := (grows_add labels label).name_eq hid
  isNamed _ hid := (grows_add labels label).isNamed hid
  find? _ _ hfind := (grows_add labels label).find? hfind
  offset? id _ hoffset := (offset?_add labels hlabel id).trans hoffset

theorem keeps_define (labels : Labels) (id : LabelId) (offset : Nat) :
    labels.Keeps (labels.define id offset).2 where
  size_le := Nat.le_of_eq (size_define labels id offset).symm
  name other _ := name_define labels id other offset
  isNamed other _ := isNamed_define labels id other offset
  find? name other hfind := (find?_define labels id offset name).trans hfind
  offset? other first hoffset := by
    cases hfree : labels.offset? id with
    | none => exact (extends_define offset hfree).offset other first hoffset
    | some existing =>
      rw [define_of_placed labels offset hfree]
      exact hoffset

theorem keeps_perform (labels : Labels) (call : Call) : labels.Keeps (call.perform labels) := by
  rcases call.cases_perform labels with
    ⟨_, _, -, -, -, hsame⟩ | ⟨label, hlabel, -, -, hadd⟩ | ⟨id, offset, rfl⟩
  · rw [hsame]
    exact .refl labels
  · rw [hadd]
    exact keeps_add labels hlabel
  · exact keeps_define labels id offset

theorem keeps_tableAt (calls : List Call) (h : time ≤ later) :
    (tableAt calls time).Keeps (tableAt calls later) := by
  induction h with
  | refl => exact .refl _
  | @step later _ ih =>
    refine ih.trans ?_
    cases hcall : calls[later]? with
    | none =>
      rw [tableAt_succ_of_none hcall]
      exact .refl _
    | some call =>
      rw [tableAt_succ hcall]
      exact keeps_perform _ call

/-! ## Labels that are given out -/

/-- A label that is given out exists from then on, and has the name that it was asked for. -/
theorem gives?_eq_some (h : call.gives? labels = some id) :
    id < (call.perform labels).size ∧ call.name? = some ((call.perform labels).name id) := by
  cases call with
  | named name =>
    obtain ⟨-, hlt, hfind⟩ := named_spec labels name
    cases h
    exact ⟨hlt, congrArg some (isNamed_of_find? hfind).2.symm⟩
  | fresh name =>
    cases h
    refine ⟨?_, ?_⟩
    · exact (size_fresh labels name).symm ▸ Nat.lt_succ_self _
    · simp [Call.name?, Call.perform, fresh, add, Labels.name, size]
  | define id offset => cases h

theorem lt_size_of_givenAt (h : givenAt calls time = some id) (hlater : time < later) :
    id < (tableAt calls later).size := by
  obtain ⟨call, hcall, hgives⟩ := exists_call_of_givenAt h
  have hlt := (gives?_eq_some hgives).1
  rw [← tableAt_succ hcall] at hlt
  exact Nat.lt_of_lt_of_le hlt (keeps_tableAt calls hlater).size_le

/-- All labels that there are have been given out. -/
theorem exists_givenAt_of_lt_size (h : id < (tableAt calls time).size) :
    ∃ earlier < time, givenAt calls earlier = some id := by
  induction time with
  | zero => cases h
  | succ time ih =>
    by_cases hold : id < (tableAt calls time).size
    · obtain ⟨earlier, hearlier, hgiven⟩ := ih hold
      exact ⟨earlier, Nat.lt_succ_of_lt hearlier, hgiven⟩
    -- The last call has made the label, so it is the next after those that there were.
    refine ⟨time, Nat.lt_succ_self time, ?_⟩
    cases hcall : calls[time]? with
    | none =>
      rw [tableAt_succ_of_none hcall] at h
      exact absurd h hold
    | some call =>
      rw [tableAt_succ hcall] at h
      rw [givenAt_eq hcall]
      rcases call.cases_perform (tableAt calls time) with
        ⟨_, _, -, -, -, hsame⟩ | ⟨label, -, -, hgives, hadd⟩ | ⟨other, offset, rfl⟩
      · rw [hsame] at h
        exact absurd h hold
      · rw [hadd, size_add] at h
        rw [hgives]
        exact congrArg some (Nat.le_antisymm (Nat.le_of_not_lt hold) (Nat.le_of_lt_succ h))
      · rw [Call.perform, size_define] at h
        exact absurd h hold

/-- The label of a name is found under the name from then on. -/
theorem find?_tableAt_of_named (h : calls[time]? = some (.named name)) (hlater : time < later) :
    (tableAt calls later).find? name = some ((tableAt calls time).named name).1 := by
  refine (keeps_tableAt calls (Nat.succ_le_of_lt hlater)).find? _ _ ?_
  rw [tableAt_succ h]
  exact (named_spec _ name).2.2

theorem named_eq_iff {other : String} (h : calls[time]? = some (.named name))
    (h' : calls[time']? = some (.named other)) :
    ((tableAt calls time).named name).1 = ((tableAt calls time').named other).1 ↔ name = other := by
  have hfind := find?_tableAt_of_named h (Nat.lt_succ_of_le (Nat.le_max_left time time'))
  have hfind' := find?_tableAt_of_named h' (Nat.lt_succ_of_le (Nat.le_max_right time time'))
  constructor
  · intro heq
    rw [← heq] at hfind'
    exact (isNamed_of_find? hfind).2.symm.trans (isNamed_of_find? hfind').2
  · rintro rfl
    exact Option.some.inj (hfind.symm.trans hfind')

/-- A new label is given out by no other call. -/
theorem eq_of_givenAt_fresh (h : calls[time]? = some (.fresh name))
    (hgiven : givenAt calls time' = some ((tableAt calls time).fresh name).1) : time' = time := by
  have hid : ((tableAt calls time).fresh name).1 = (tableAt calls time).size := rfl
  have hafter : tableAt calls (time + 1) = ((tableAt calls time).fresh name).2 := tableAt_succ h
  have hsize : (tableAt calls (time + 1)).size = (tableAt calls time).size + 1 := by
    rw [hafter, size_fresh]
  rw [hid] at hgiven
  rcases Nat.lt_trichotomy time' time with hlt | heq | hgt
  · exact absurd (lt_size_of_givenAt hgiven hlt) (Nat.lt_irrefl _)
  · exact heq
  · exfalso
    have hkeeps := fun {later} (hle : time' ≤ later) =>
      keeps_tableAt calls (Nat.le_trans (Nat.succ_le_of_lt hgt) hle)
    obtain ⟨call, hcall, hgives⟩ := exists_call_of_givenAt hgiven
    cases call with
    | named other =>
      -- The source can refer to the label of a name, but not to a new label.
      have hfind := find?_tableAt_of_named hcall (Nat.lt_succ_self time')
      rw [Option.some.inj hgives] at hfind
      have hnamed := (isNamed_of_find? hfind).1
      rw [(hkeeps (Nat.le_succ time')).isNamed _ (hsize ▸ Nat.lt_succ_self _), hafter, fresh,
        isNamed_add_self] at hnamed
      cases hnamed
    | fresh other =>
      have heq : (tableAt calls time').size = (tableAt calls time).size := Option.some.inj hgives
      have hle := (hkeeps (Nat.le_refl time')).size_le
      rw [hsize, heq] at hle
      exact Nat.not_succ_le_self _ hle
    | define other offset => cases hgives

/-! ## Labels that are placed -/

theorem offset?_perform (labels : Labels) (h : ∀ target ∈ call.target?, target < labels.size)
    (id : LabelId) :
    (call.perform labels).offset? id = (labels.offset? id).or (call.place? id) := by
  rcases call.cases_perform labels with
    ⟨name, _, rfl, -, -, hsame⟩ | ⟨label, hlabel, hplace, -, hadd⟩ | ⟨target, offset, rfl⟩
  · rw [hsame]
    exact (Option.or_none ..).symm
  · rw [hadd, hplace, Option.or_none]
    exact offset?_add labels hlabel id
  · exact offset?_define labels (h target rfl) offset id

theorem Known.lt_size (known : Known calls) (h : calls[time]? = some call) :
    ∀ target ∈ call.target?, target < (tableAt calls time).size := by
  intro target htarget
  obtain ⟨hlt, -⟩ := List.getElem?_eq_some_iff.1 h
  obtain ⟨earlier, hearlier, hgiven⟩ := known time hlt target (by rw [h]; exact htarget)
  exact lt_size_of_givenAt hgiven hearlier

/-- The offset of a label is that of the first call that is to place it. -/
theorem Known.offset?_tableAt (known : Known calls) (time : Nat) (id : LabelId) :
    (tableAt calls time).offset? id = firstPlace id (calls.take time) := by
  induction time with
  | zero => rfl
  | succ time ih =>
    cases hcall : calls[time]? with
    | none =>
      rw [tableAt_succ_of_none hcall, ih]
      simp [List.take_add_one, hcall]
    | some call =>
      rw [tableAt_succ hcall, offset?_perform _ (known.lt_size hcall), ih]
      simp [firstPlace, List.take_add_one, hcall]

/-! ## Any calls -/

/-- **Labels keep their names and places.** Whatever calls come to an empty table, in whatever
order, the labels of two names are the same just if the names are, and a new label is given out by no
other call, before or after. From the call that gives it out on, a label has the name that this call
asked for. The offset of a label is at all times that of the first call so far that is to place it,
and stays as it is: the first call succeeds, and any later one fails with the offset of the first and
leaves the table as it is. -/
theorem labels_keep_names_and_places (calls : List Call) (known : Known calls) :
    (∀ time time' name name', calls[time]? = some (.named name) →
      calls[time']? = some (.named name') →
      (((tableAt calls time).named name).1 = ((tableAt calls time').named name').1 ↔
        name = name')) ∧
    (∀ time time' name, calls[time]? = some (.fresh name) →
      givenAt calls time' = some ((tableAt calls time).fresh name).1 → time' = time) ∧
    (∀ time later id call, calls[time]? = some call → givenAt calls time = some id →
      time < later → call.name? = some ((tableAt calls later).name id)) ∧
    (∀ time id, (tableAt calls time).offset? id = firstPlace id (calls.take time)) ∧
    (∀ time later id offset, time ≤ later → (tableAt calls time).offset? id = some offset →
      (tableAt calls later).offset? id = some offset) ∧
    ∀ time id offset, calls[time]? = some (.define id offset) →
      (firstPlace id (calls.take time) = none →
        ((tableAt calls time).define id offset).1 = .ok () ∧
          (tableAt calls (time + 1)).offset? id = some offset) ∧
      ∀ first, firstPlace id (calls.take time) = some first →
        (tableAt calls time).define id offset = (.error first, tableAt calls time) := by
  refine ⟨fun _ _ _ _ h h' => named_eq_iff h h', fun _ _ _ h hgiven => eq_of_givenAt_fresh h hgiven,
    ?_, known.offset?_tableAt, fun _ _ id offset hle => (keeps_tableAt calls hle).offset? id offset,
    ?_⟩
  · intro time later id call hcall hgiven hlater
    rw [givenAt_eq hcall] at hgiven
    obtain ⟨hlt, hname⟩ := gives?_eq_some hgiven
    rw [← tableAt_succ hcall] at hlt hname
    rw [hname, (keeps_tableAt calls (Nat.succ_le_of_lt hlater)).name id hlt]
  · intro time id offset hcall
    rw [← known.offset?_tableAt]
    refine ⟨fun hfree => ⟨?_, ?_⟩, fun first hfirst => define_of_placed _ offset hfirst⟩
    · simp only [define, hfree]
    · rw [tableAt_succ hcall]
      exact offset?_define_self _ offset (known.lt_size hcall id rfl) hfree

/-- A name, a new label of that name and the name again; the first label is placed, then another new
one, and then the first once more. -/
theorem labels_keep_names_and_places_loop :
    let calls : List Call := [.named "loop", .fresh "loop", .named "loop", .define 0 4,
      .fresh "end", .define 2 6, .define 0 8, .named "end"]
    (List.range 8).map (givenAt calls) =
        [some 0, some 1, some 0, none, some 2, none, none, some 3] ∧
      (∀ time, givenAt calls time = some 1 → time = 1) ∧ (tableAt calls 8).name 1 = "loop" ∧
      (tableAt calls 8).offset? 0 = some 4 ∧
      (tableAt calls 6).define 0 8 = (.error 4, tableAt calls 6) := by
  intro calls
  have known : Known calls := by decide
  obtain ⟨-, hfresh, hname, hoffset, -, hplace⟩ := labels_keep_names_and_places calls known
  refine ⟨by decide, fun time hgiven => hfresh 1 time "loop" rfl hgiven, ?_, hoffset 8 0, ?_⟩
  · exact (Option.some.inj (hname 1 8 1 (.fresh "loop") rfl rfl (by decide))).symm
  · exact (hplace 6 0 8 rfl).2 4 rfl

/-! ## Columns -/

/-- A table whose names, offsets and numbers by name are kept apart. -/
structure Columns where
  names : List String
  offsets : List (Option Nat)
  numbers : List (String × LabelId)

namespace Columns

def empty : Columns :=
  ⟨[], [], []⟩

/-- A new label that no source text can refer to. -/
def fresh (columns : Columns) (name : String) : LabelId × Columns :=
  (columns.names.length,
    { columns with names := columns.names ++ [name], offsets := columns.offsets ++ [none] })

/-- The label that the source knows by a name, made on first use. -/
def named (columns : Columns) (name : String) : LabelId × Columns :=
  match columns.numbers.lookup name with
  | some id => (id, columns)
  | none =>
    let (id, made) := columns.fresh name
    (id, { made with numbers := (name, id) :: made.numbers })

/-- Places a label, unless the column of offsets ends before it. -/
def define (columns : Columns) (id : LabelId) (offset : Nat) : Option (Except Nat Unit × Columns) :=
  match columns.offsets[id]? with
  | none => none
  | some (some existing) => some (.error existing, columns)
  | some none => some (.ok (), { columns with offsets := columns.offsets.set id (some offset) })

/-- The columns behind a call. -/
def perform (columns : Columns) : Call → Option Columns
  | .named name => some (columns.named name).2
  | .fresh name => some (columns.fresh name).2
  | .define id offset => (columns.define id offset).map Prod.snd

def run (calls : List Call) : Option Columns :=
  calls.foldlM perform empty

/-- The columns are those of the table. -/
structure Mirror (columns : Columns) (labels : Labels) : Prop where
  names : columns.names = labels.entries.map Label.name
  offsets : columns.offsets = labels.entries.map Label.offset
  numbers : ∀ name, columns.numbers.lookup name = labels.find? name

variable {columns : Columns}

theorem mirror_fresh (h : columns.Mirror labels) (name : String) :
    (columns.fresh name).1 = (labels.fresh name).1 ∧
      (columns.fresh name).2.Mirror (labels.fresh name).2 := by
  refine ⟨?_, ?_, ?_, fun other => ?_⟩
  · simp [fresh, Labels.fresh, add, size, h.names]
  · simp [fresh, Labels.fresh, add, h.names]
  · simp [fresh, Labels.fresh, add, h.offsets]
  · rw [Labels.fresh, find?_add]
    simpa [fresh] using h.numbers other

theorem mirror_named (h : columns.Mirror labels) (name : String) :
    (columns.named name).1 = (labels.named name).1 ∧
      (columns.named name).2.Mirror (labels.named name).2 := by
  unfold named Labels.named
  rw [h.numbers]
  cases hfind : labels.find? name with
  | some id => exact ⟨rfl, h⟩
  | none =>
    refine ⟨?_, ?_, ?_, fun other => ?_⟩
    · simp [fresh, add, size, h.names]
    · simp [fresh, add, h.names]
    · simp [fresh, add, h.offsets]
    · rw [find?_add]
      by_cases heq : name = other
      · subst heq
        simp [fresh, hfind, h.names, size]
      · have hne : (other == name) = false := beq_false_of_ne (Ne.symm heq)
        simp [fresh, List.lookup_cons, hne, heq, h.numbers]

theorem define_eq_none_iff (h : columns.Mirror labels) (id : LabelId) (offset : Nat) :
    columns.define id offset = none ↔ labels.size ≤ id := by
  have hlength : columns.offsets.length = labels.size := by rw [h.offsets, List.length_map, size]
  rw [← hlength, ← List.getElem?_eq_none_iff]
  unfold define
  split <;> simp [*]

theorem mirror_define (h : columns.Mirror labels) {id : LabelId} (hid : id < labels.size)
    (offset : Nat) : ∃ after, columns.define id offset = some ((labels.define id offset).1, after) ∧
      after.Mirror (labels.define id offset).2 := by
  have hget : columns.offsets[id]? = some (labels.offset? id) := by
    have hlt : id < labels.entries.length := hid
    rw [h.offsets, offset?, List.getElem?_map, List.getElem?_eq_getElem hlt]
    rfl
  unfold define
  rw [hget]
  cases hoffset : labels.offset? id with
  | some existing =>
    rw [define_of_placed labels offset hoffset]
    exact ⟨columns, rfl, h⟩
  | none =>
    have hok : (labels.define id offset).1 = .ok () := by simp only [Labels.define, hoffset]
    refine ⟨_, by rw [hok], ?_, ?_, fun name => ?_⟩
    · rw [map_entries_define _ fun _ _ => rfl]
      exact h.names
    · rw [map_offset_define hoffset, ← h.offsets]
    · rw [find?_define]
      exact h.numbers name

/-- A call reads outside the columns just if it is to place a label that there is not. -/
theorem perform_isSome_iff (h : columns.Mirror labels) (call : Call) :
    (columns.perform call).isSome ↔ ∀ target ∈ call.target?, target < labels.size := by
  cases call with
  | named name => simp [perform, Call.target?]
  | fresh name => simp [perform, Call.target?]
  | define id offset =>
    have hnone := define_eq_none_iff h id offset
    rw [perform, Option.isSome_map, Option.isSome_iff_ne_none, ne_eq, hnone]
    simp [Call.target?]

theorem mirror_perform (h : columns.Mirror labels) {call : Call} {after : Columns}
    (hperform : columns.perform call = some after) : after.Mirror (call.perform labels) := by
  cases call with
  | named name =>
    cases hperform
    exact (mirror_named h name).2
  | fresh name =>
    cases hperform
    exact (mirror_fresh h name).2
  | define id offset =>
    have hid := (perform_isSome_iff h (.define id offset)).1 (by rw [hperform]; rfl) id rfl
    obtain ⟨answered, hanswered, hmirror⟩ := mirror_define h hid offset
    rw [perform, hanswered] at hperform
    cases hperform
    exact hmirror

theorem run_append (first second : List Call) :
    run (first ++ second) = (run first).bind (second.foldlM perform) :=
  List.foldlM_append

theorem run_take_succ (h : calls[time]? = some call) :
    run (calls.take (time + 1)) = (run (calls.take time)).bind (·.perform call) := by
  rw [List.take_add_one, run_append, h]
  simp

/-- As long as no call reads outside the columns, they are those of the table. -/
theorem mirror_run (h : run (calls.take time) = some columns) :
    columns.Mirror (tableAt calls time) := by
  induction time generalizing columns with
  | zero =>
    cases h
    exact ⟨rfl, rfl, fun _ => rfl⟩
  | succ time ih =>
    cases hcall : calls[time]? with
    | none =>
      rw [tableAt_succ_of_none hcall]
      exact ih (by simpa [List.take_add_one, hcall] using h)
    | some call =>
      rw [run_take_succ hcall] at h
      obtain ⟨earlier, hearlier, hperform⟩ := Option.bind_eq_some_iff.1 h
      rw [tableAt_succ hcall]
      exact mirror_perform (ih hearlier) hperform

/-- No call reads outside the columns just if labels are placed only once they are given out. -/
theorem run_isSome_iff : (run calls).isSome ↔ Known calls := by
  constructor
  · intro hrun time htime target htarget
    obtain ⟨call, hcall⟩ : ∃ call, calls[time]? = some call :=
      ⟨_, List.getElem?_eq_getElem htime⟩
    rw [hcall] at htarget
    rw [← List.take_append_drop (time + 1) calls, run_append] at hrun
    obtain ⟨after, hafter, -⟩ := Option.bind_eq_some_iff.1 (Option.eq_some_of_isSome hrun)
    rw [run_take_succ hcall] at hafter
    obtain ⟨columns, hcolumns, hperform⟩ := Option.bind_eq_some_iff.1 hafter
    refine exists_givenAt_of_lt_size ?_
    exact (perform_isSome_iff (mirror_run hcolumns) call).1 (by rw [hperform]; rfl) target htarget
  · intro known
    have hall : ∀ time, (run (calls.take time)).isSome := by
      intro time
      induction time with
      | zero => rfl
      | succ time ih =>
        obtain ⟨columns, hcolumns⟩ := Option.isSome_iff_exists.1 ih
        cases hcall : calls[time]? with
        | none => simpa [List.take_add_one, hcall] using ih
        | some call =>
          rw [run_take_succ hcall, hcolumns]
          exact (perform_isSome_iff (mirror_run hcolumns) call).2 (known.lt_size hcall)
    rw [← List.take_length (l := calls)]
    exact hall calls.length

end Columns

end Labels

end ByteBasic
