import Mathlib.Data.List.Nodup
import ByteBasic.Proofs.Code.Faults
import ByteBasic.Proofs.Compiler.Sequencing

/-!
# Labels are placed once

The labels of one table come from two sides. Those that the source names are made at the first line
that mentions them, and are placed by every line that defines them. Those of blocks and functions
are made when the block is opened and have to be placed by it, some at once and the others by its
`else` or its `end`: until then the block owes them (`Block.owed`).

**Theorem (`Session.Reached.ledger`).** After any number of lines, the labels that were placed and
those that open blocks owe are, one for one, the labels without a name and those that the lines so
far define. Every jump to a label that the source names comes from a line that jumps to that name,
and each such line has one.
-/

namespace ByteBasic

/-! ## Labels with and without names -/

namespace Labels

variable {labels before middle after : Labels} {name : String} {id : LabelId} {label : Label}

/-- Whether the source can refer to a label. -/
def isNamed (labels : Labels) (id : LabelId) : Bool :=
  (labels.entries[id]?.map Label.isNamed).getD false

/-- The labels that the source cannot refer to. -/
def unnamed (labels : Labels) : List LabelId :=
  (List.range labels.size).filter fun id => !labels.isNamed id

/-- No two labels that the source can refer to have one name. -/
def Distinct (labels : Labels) : Prop :=
  ∀ id, labels.isNamed id = true → labels.find? (labels.name id) = some id

theorem mem_unnamed : id ∈ labels.unnamed ↔ id < labels.size ∧ labels.isNamed id = false := by
  simp [unnamed]

theorem nodup_unnamed (labels : Labels) : labels.unnamed.Nodup :=
  List.nodup_range.sublist List.filter_sublist

theorem lt_of_isNamed (h : labels.isNamed id = true) : id < labels.size := by
  unfold isNamed at h
  cases hget : labels.entries[id]? with
  | none =>
    rw [hget] at h
    cases h
  | some label => exact (List.getElem?_eq_some_iff.1 hget).1

theorem isNamed_of_find? (h : labels.find? name = some id) :
    labels.isNamed id = true ∧ labels.name id = name := by
  obtain ⟨hlt, hfound, -⟩ := List.findIdx?_eq_some_iff_getElem.1 h
  simp only [Bool.and_eq_true, beq_iff_eq] at hfound
  unfold isNamed Labels.name
  rw [List.getElem?_eq_getElem hlt]
  exact hfound

theorem not_mem_unnamed_of_find? (h : labels.find? name = some id) : id ∉ labels.unnamed := by
  rw [mem_unnamed, (isNamed_of_find? h).1]
  exact fun hno => by cases hno.2

theorem Grows.isNamed (h : before.Grows after) (hid : id < before.size) :
    after.isNamed id = before.isNamed id := by
  obtain ⟨more, hmore⟩ := h
  unfold Labels.isNamed
  rw [← hmore, List.getElem?_append_left hid]

theorem Grows.name_eq (h : before.Grows after) (hid : id < before.size) :
    after.name id = before.name id := by
  obtain ⟨more, hmore⟩ := h
  unfold Labels.name
  rw [← hmore, List.getElem?_append_left hid]

theorem isNamed_add_self (labels : Labels) (label : Label) :
    (labels.add label).2.isNamed labels.size = label.isNamed := by
  simp [isNamed, add, size]

theorem unnamed_add (labels : Labels) (label : Label) :
    (labels.add label).2.unnamed =
      labels.unnamed ++ if label.isNamed then [] else [labels.size] := by
  unfold unnamed
  rw [size_add, List.range_succ, List.filter_append]
  congr 1
  · refine List.filter_congr fun id hid => ?_
    rw [(grows_add labels label).isNamed (List.mem_range.1 hid)]
  · rw [List.filter_cons, isNamed_add_self]
    cases label.isNamed <;> rfl

/-- Labels have been added, and these of them have no name. -/
structure Gains (made : List LabelId) (before after : Labels) : Prop where
  grows : before.Grows after
  unnamed : after.unnamed = before.unnamed ++ made
  distinct : before.Distinct → after.Distinct

theorem Gains.refl (labels : Labels) : labels.Gains [] labels :=
  ⟨.refl labels, (List.append_nil _).symm, id⟩

theorem Gains.trans {made more : List LabelId} (h₁ : Gains made before middle)
    (h₂ : Gains more middle after) : Gains (made ++ more) before after :=
  ⟨h₁.grows.trans h₂.grows, by rw [h₂.unnamed, h₁.unnamed, List.append_assoc],
    h₂.distinct ∘ h₁.distinct⟩

/-- A new label is told from the others if it has no name, or a name of its own. -/
theorem Distinct.add (h : labels.Distinct)
    (hnew : label.isNamed = true → labels.find? label.name = none) :
    (labels.add label).2.Distinct := by
  intro id hid
  have hgrows := grows_add labels label
  have hle : id < labels.size + 1 := by
    rw [← size_add labels label]
    exact lt_of_isNamed hid
  rcases Nat.lt_succ_iff_lt_or_eq.1 hle with hlt | rfl
  · rw [hgrows.isNamed hlt] at hid
    rw [hgrows.name_eq hlt]
    exact hgrows.find? (h id hid)
  · rw [isNamed_add_self] at hid
    have hname : (labels.add label).2.name labels.size = label.name := by
      simp [Labels.name, Labels.add, size]
    have hnone := hnew hid
    rw [hname]
    unfold Labels.find? at hnone ⊢
    simp only [Labels.add, List.findIdx?_append, hnone]
    simp [hid, size]

theorem gains_fresh (labels : Labels) (name : String) :
    labels.Gains [labels.size] (labels.fresh name).2 :=
  ⟨grows_add _ _, unnamed_add _ _, fun h => h.add fun hno => by cases hno⟩

theorem gains_named (labels : Labels) (name : String) : labels.Gains [] (labels.named name).2 := by
  unfold named
  cases hfind : labels.find? name with
  | some id => exact .refl labels
  | none => exact ⟨grows_add _ _, unnamed_add _ _, fun h => h.add fun _ => hfind⟩

end Labels

namespace Block

variable {labels after : Labels} {name : String} {line : Nat} {block : Block}

theorem gains_newBranch (h : newBranch labels name line = (block, after)) :
    labels.Gains block.labels after := by
  cases h
  exact ((labels.gains_fresh _).trans (Labels.gains_fresh _ _)).trans (Labels.gains_fresh _ _)

theorem gains_newLoop {check : LabelId} (h : newLoop labels name line = (block, check, after)) :
    labels.Gains block.labels after := by
  cases h
  exact ((labels.gains_fresh _).trans (Labels.gains_fresh _ _)).trans (Labels.gains_fresh _ _)

theorem gains_newFunction {id : FunctionId} (h : newFunction labels name id line = (block, after)) :
    labels.Gains block.labels after := by
  cases h
  exact (labels.gains_fresh _).trans (Labels.gains_fresh _ _)

/-- The labels that a block still has to place. -/
def owed (block : Block) : List LabelId :=
  placedLabels (block.close block.line)

theorem placedLabels_close (block : Block) (line : Nat) :
    placedLabels (block.close line) = block.owed := by
  unfold owed close
  cases block.kind with
  | branch otherwise hasElse => cases hasElse <;> rfl
  | loop check => rfl
  | function id => rfl

theorem targets_close (block : Block) (line : Nat) :
    ∀ item ∈ block.close line, ∀ target ∈ item.targets, target ∈ block.labels := by
  unfold close Block.labels
  rcases block.kind with ⟨otherwise, _ | _⟩ | ⟨check⟩ | ⟨id⟩ <;> simp [Item.targets, Item.labels]

/-- An `else` places a label that the `if` owes, and leaves the others to it. -/
theorem owed_openElse {block opened : Block} {line : Nat} {chunk : List Item}
    (h : block.openElse line = .ok (opened, chunk)) :
    opened.labels = block.labels ∧ placedLabels chunk ++ opened.owed = block.owed ∧
      ∀ item ∈ chunk, ∀ target ∈ item.targets, target ∈ block.labels := by
  obtain ⟨otherwise, hkind, rfl, rfl⟩ := openElse_eq_ok h
  refine ⟨?_, ?_, ?_⟩
  · simp [labels, hkind]
  · simp [owed, close, hkind, placedLabels, Item.placed]
  · simp [labels, hkind, Item.targets, Item.labels]

end Block

/-! ## Lines that define labels and lines that jump to them -/

/-- The label that a statement defines. -/
def Statement.defines? : Statement → Option String
  | .label name => some name
  | _ => none

/-- The label that a statement jumps to. -/
def Statement.jumpsTo? : Statement → Option String
  | .goto name => some name
  | .ifGoto _ name => some name
  | _ => none

namespace Build

/-- The labels that open blocks still have to place. -/
def owed (blocks : List Block) : List LabelId :=
  blocks.flatMap Block.owed

/-- Blocks and functions have labels that the source cannot refer to. -/
structure Owns (control : Control) : Prop where
  blocks : ∀ block ∈ control.blocks, ∀ id ∈ block.labels, id ∈ control.labels.unnamed
  functions : ∀ function ∈ control.functions, function.main ∈ control.labels.unnamed

/-- What a line does to labels: it adds labels, of which `made` have no name, and puts out turning
items. A label that was owed or is made is placed or still owed; besides, the line places the label
that it defines, and it jumps to the label that it names. -/
structure Balances (number : Nat) (made : List LabelId) (before after : Control)
    (items : List (Scope × Item)) (said : Option Statement) : Prop where
  gains : before.labels.Gains made after.labels
  balance : (placedLabels (items.map Prod.snd) ++ owed after.blocks).Perm
    (owed before.blocks ++ (made ++
      ((said.bind Statement.defines?).bind after.labels.find?).toList))
  found : ∀ name, said.bind Statement.defines? = some name → after.labels.find? name ≠ none
  targets : ∀ entry ∈ items, ∀ target ∈ entry.2.targets, target ∈ after.labels.unnamed ∨
    entry.2.lines = [number] ∧ ∃ name, said.bind Statement.jumpsTo? = some name ∧
      after.labels.find? name = some target
  jumps : ∀ name, said.bind Statement.jumpsTo? = some name →
    ∃ entry ∈ items, ∃ target ∈ entry.2.targets, after.labels.find? name = some target
  owns : Owns after

variable {number : Nat} {made : List LabelId} {before after : Control} {items : List (Scope × Item)}
  {said : Option Statement} {name : String}

/-- A line that mentions no label of the source. -/
theorem Balances.of_silent (hdefines : said.bind Statement.defines? = none)
    (hjumps : said.bind Statement.jumpsTo? = none) (gains : before.labels.Gains made after.labels)
    (balance : (placedLabels (items.map Prod.snd) ++ owed after.blocks).Perm
      (owed before.blocks ++ made))
    (targets : ∀ entry ∈ items, ∀ target ∈ entry.2.targets, target ∈ after.labels.unnamed)
    (owns : Owns after) : Balances number made before after items said where
  gains := gains
  balance := by
    rw [hdefines]
    simpa using balance
  found name hname := by
    rw [hdefines] at hname
    cases hname
  targets entry hentry target htarget := .inl (targets entry hentry target htarget)
  jumps name hname := by
    rw [hjumps] at hname
    cases hname
  owns := owns

/-- A line that leaves the labels and the blocks and jumps at most to functions. -/
theorem Balances.of_still (hdefines : said.bind Statement.defines? = none)
    (hjumps : said.bind Statement.jumpsTo? = none) (hafter : after = before)
    (hplaced : placedLabels (items.map Prod.snd) = [])
    (targets : ∀ entry ∈ items, ∀ target ∈ entry.2.targets, target ∈ before.labels.unnamed)
    (owns : Owns before) : Balances number [] before after items said := by
  subst hafter
  refine .of_silent hdefines hjumps (.refl _) ?_ targets owns
  rw [hplaced, List.append_nil]
  exact .refl _

theorem owed_cons (block : Block) (blocks : List Block) :
    owed (block :: blocks) = block.owed ++ owed blocks := rfl

theorem Owns.mono (h : Owns before) (gains : before.labels.Gains made after.labels)
    (hblocks : ∀ block ∈ after.blocks, block ∈ before.blocks ∨ ∀ id ∈ block.labels, id ∈ made)
    (hfunctions : ∀ function ∈ after.functions,
      function ∈ before.functions ∨ function.main ∈ made) : Owns after := by
  have hunnamed : ∀ id, id ∈ before.labels.unnamed ∨ id ∈ made → id ∈ after.labels.unnamed := by
    intro id hid
    rw [gains.unnamed]
    exact List.mem_append.2 hid
  constructor
  · intro block hmem id hid
    rcases hblocks block hmem with hmem | hnew
    · exact hunnamed id (.inl (h.blocks block hmem id hid))
    · exact hunnamed id (.inr (hnew id hid))
  · intro function hmem
    exact hunnamed _ ((hfunctions function hmem).imp_left (h.functions function))

/-- A line that goes on in the innermost block or closes it places some labels that the block owes,
and jumps to labels of the block. -/
theorem Balances.of_chunk {block : Block} {outer : List Block} {chunk : List Item}
    (hdefines : said.bind Statement.defines? = none) (hjumps : said.bind Statement.jumpsTo? = none)
    (hblocks : before.blocks = block :: outer) (hlabels : after.labels = before.labels)
    (hfunctions : after.functions = before.functions)
    (hafter : ∀ other ∈ after.blocks, other ∈ outer ∨ other.labels = block.labels)
    (hplaced : placedLabels chunk ++ owed after.blocks = block.owed ++ owed outer)
    (htargets : ∀ item ∈ chunk, ∀ target ∈ item.targets, target ∈ block.labels)
    (owns : Owns before) :
    Balances number [] before after (chunk.map fun item => (before.current, item)) said := by
  have hblock := owns.blocks block (by simp [hblocks])
  refine .of_silent hdefines hjumps ?_ ?_ ?_ ⟨?_, ?_⟩
  · rw [hlabels]
    exact .refl _
  · rw [List.map_map, hblocks, owed_cons, List.append_nil, ← hplaced]
    simp [Function.comp_def]
  · intro entry hentry target htarget
    obtain ⟨item, hitem, rfl⟩ := List.mem_map.1 hentry
    rw [hlabels]
    exact hblock target (htargets item hitem target htarget)
  · intro other hother id hid
    rw [hlabels]
    rcases hafter other hother with hother | hsame
    · exact owns.blocks other (by simp [hblocks, hother]) id hid
    · rw [hsame] at hid
      exact hblock id hid
  · rw [hlabels, hfunctions]
    exact owns.functions

/-- A line that opens a block places some labels of the block and leaves the others to it. -/
theorem Balances.of_opening {block : Block} (hdefines : said.bind Statement.defines? = none)
    (hjumps : said.bind Statement.jumpsTo? = none)
    (gains : before.labels.Gains block.labels after.labels)
    (hblocks : after.blocks = block :: before.blocks)
    (hfunctions : ∀ function ∈ after.functions,
      function ∈ before.functions ∨ function.main ∈ block.labels)
    (hplaced : (placedLabels (items.map Prod.snd) ++ block.owed).Perm block.labels)
    (targets : ∀ entry ∈ items, ∀ target ∈ entry.2.targets, target ∈ block.labels)
    (owns : Owns before) : Balances number block.labels before after items said := by
  refine .of_silent hdefines hjumps gains ?_ (fun entry hentry target htarget => ?_)
    (owns.mono gains (fun other hother => ?_) hfunctions)
  · rw [hblocks, owed_cons, ← List.append_assoc]
    exact (hplaced.append_right _).trans List.perm_append_comm
  · rw [gains.unnamed]
    exact List.mem_append_right _ (targets entry hentry target htarget)
  · rw [hblocks] at hother
    rcases List.mem_cons.1 hother with rfl | hother
    · exact .inr fun _ hid => hid
    · exact .inl hother

theorem Owns.named (h : Owns before)
    (hafter : after = { before with labels := (before.labels.named name).2 }) : Owns after := by
  subst hafter
  refine h.mono (before.labels.gains_named name) ?_ ?_
  · intro block hmem
    exact .inl hmem
  · intro function hmem
    exact .inl hmem

/-- A line that jumps to a label of the source, and puts out nothing else. -/
theorem Balances.of_jump {entry : Scope × Item} (hdefines : said.bind Statement.defines? = none)
    (hjumps : said.bind Statement.jumpsTo? = some name)
    (hafter : after = { before with labels := (before.labels.named name).2 })
    (hplaced : entry.2.placed = []) (htargets : entry.2.targets = [(before.labels.named name).1])
    (hlines : entry.2.lines = [number]) (owns : Owns before) :
    Balances number [] before after [entry] said := by
  have howns := owns.named hafter
  have hfind := (before.labels.named_spec name).2.2
  subst hafter
  constructor
  · exact before.labels.gains_named name
  · simp [hdefines, placedLabels, hplaced]
  · simp [hdefines]
  · intro other hother target htarget
    rw [List.mem_singleton.1 hother, htargets, List.mem_singleton] at htarget
    rw [List.mem_singleton.1 hother, htarget]
    exact .inr ⟨hlines, name, hjumps, hfind⟩
  · intro other hother
    rw [hjumps] at hother
    cases hother
    refine ⟨entry, List.mem_singleton_self _, _, ?_, hfind⟩
    rw [htargets]
    exact List.mem_singleton_self _
  · exact howns

theorem Balances.of_label {entry : Scope × Item}
    (hdefines : said.bind Statement.defines? = some name)
    (hjumps : said.bind Statement.jumpsTo? = none)
    (hafter : after = { before with labels := (before.labels.named name).2 })
    (hplaced : entry.2.placed = [(before.labels.named name).1]) (htargets : entry.2.targets = [])
    (owns : Owns before) : Balances number [] before after [entry] said := by
  have howns := owns.named hafter
  have hfind := (before.labels.named_spec name).2.2
  subst hafter
  constructor
  · exact before.labels.gains_named name
  · simp only [hdefines, hfind, placedLabels, hplaced, List.map_cons, List.map_nil,
      List.flatMap_cons, List.flatMap_nil, Option.bind_some, Option.toList_some, List.nil_append,
      List.append_nil]
    exact List.perm_append_comm
  · intro other hother
    rw [hdefines] at hother
    cases hother
    rw [hfind]
    simp
  · intro other hother target htarget
    rw [List.mem_singleton.1 hother, htargets] at htarget
    cases htarget
  · simp [hjumps]
  · exact howns

/-- An `if` places the label of its body and leaves the other two to the block. -/
theorem Balances.of_newBranch {block : Block} {labels : Labels} {scope : Scope}
    {comparison : Comparison} {register : UInt8} (hdefines : said.bind Statement.defines? = none)
    (hjumps : said.bind Statement.jumpsTo? = none)
    (hnew : Block.newBranch before.labels name number = (block, labels)) (owns : Owns before) :
    Balances number block.labels before
      { before with labels := labels, blocks := block :: before.blocks }
      [(scope, .compare comparison register .next (.label block.rejectLabel) number),
        (scope, .label block.main number)] said := by
  have hgains := Block.gains_newBranch hnew
  obtain ⟨otherwise, main, behind, hblock, -⟩ := Block.newBranch_spec before.labels name number
  rw [hnew] at hblock
  obtain rfl : block = _ := hblock
  refine .of_opening hdefines hjumps hgains rfl (fun _ hmem => .inl hmem) ?_ ?_ owns
  · exact List.Perm.swap otherwise main [behind]
  · simp [Item.targets, Item.labels, Target.labels, Block.rejectLabel, Block.labels]

/-- A loop places the labels of its test and of its body and leaves the last one to the block. -/
theorem Balances.of_newLoop {block : Block} {check : LabelId} {labels : Labels} {scope : Scope}
    {comparison : Comparison} {register : UInt8} (hdefines : said.bind Statement.defines? = none)
    (hjumps : said.bind Statement.jumpsTo? = none)
    (hnew : Block.newLoop before.labels name number = (block, check, labels)) (owns : Owns before) :
    Balances number block.labels before
      { before with labels := labels, blocks := block :: before.blocks }
      [(scope, .label check number),
        (scope, .compare comparison register .next (.label block.after) number),
        (scope, .label block.main number)] said := by
  have hgains := Block.gains_newLoop hnew
  obtain ⟨first, main, behind, hblock, hcheck, -⟩ := Block.newLoop_spec before.labels name number
  rw [hnew] at hblock hcheck
  obtain rfl : block = _ := hblock
  obtain rfl : check = first := hcheck
  refine .of_opening hdefines hjumps hgains rfl (fun _ hmem => .inl hmem) ?_ ?_ owns
  · exact List.Perm.refl [check, main, behind]
  · simp [Item.targets, Item.labels, Target.labels, Block.labels]

/-- A function places the label of its body and leaves the last one to the block. -/
theorem Balances.of_newFunction {block : Block} {labels : Labels} {current stream : Scope}
    {defined : String} (hdefines : said.bind Statement.defines? = none)
    (hjumps : said.bind Statement.jumpsTo? = none)
    (hnew : Block.newFunction before.labels name before.functions.length number = (block, labels))
    (owns : Owns before) :
    Balances number block.labels before
      ⟨labels, before.functions ++ [⟨defined, block.main⟩], current, block :: before.blocks⟩
      [(stream, .label block.main number)] said := by
  have hgains := Block.gains_newFunction hnew
  obtain ⟨main, behind, hblock, -⟩ :=
    Block.newFunction_spec before.labels name number before.functions.length
  rw [hnew] at hblock
  obtain rfl : block = _ := hblock
  refine .of_opening hdefines hjumps hgains rfl (fun function hmem => ?_) ?_ ?_ owns
  · rcases List.mem_append.1 hmem with hmem | hmem
    · exact .inl hmem
    · rw [List.mem_singleton.1 hmem]
      exact .inr (List.mem_cons_self ..)
  · exact List.Perm.refl [main, behind]
  · simp [Item.targets]

/-- What a line does to labels. -/
theorem SteeredLine.balances (h : SteeredLine number before after items said) (owns : Owns before) :
    ∃ made, Balances number made before after items said := by
  -- Most statements mention no label and put out nothing that turns.
  have hidle : ∀ statement, said = some statement → after = before ∧ items = [] →
      statement.defines? = none → statement.jumpsTo? = none →
      Balances number [] before after items said := by
    rintro statement rfl ⟨hafter, rfl⟩ hdefines hjumps
    exact .of_still hdefines hjumps hafter rfl (fun _ hno => (by cases hno)) owns
  rcases said with _ | statement
  · obtain ⟨hafter, rfl⟩ := h
    exact ⟨_, .of_still rfl rfl hafter rfl (fun _ hno => (by cases hno)) owns⟩
  cases statement with
  | declare name value => exact ⟨_, hidle _ rfl h rfl rfl⟩
  | assign dest update => exact ⟨_, hidle _ rfl h rfl rfl⟩
  | halt => exact ⟨_, hidle _ rfl h rfl rfl⟩
  | exit code => exact ⟨_, hidle _ rfl h rfl rfl⟩
  | ret =>
    obtain ⟨-, hafter, rfl⟩ := h
    exact ⟨_, .of_still rfl rfl hafter rfl (by simp [Item.targets, Item.labels]) owns⟩
  | call name arguments =>
    obtain ⟨hafter, rfl | ⟨function, hfunction, rfl⟩⟩ := h
    · exact ⟨_, hidle _ rfl ⟨hafter, rfl⟩ rfl rfl⟩
    · have hmain := owns.functions function hfunction
      refine ⟨_, .of_still rfl rfl hafter rfl ?_ owns⟩
      simpa [Item.targets, Item.labels] using hmain
  | otherwise =>
    obtain ⟨block, outer, opened, chunk, hblocks, hopen, rfl, rfl⟩ := h
    obtain ⟨hlabels, hplaced, htargets⟩ := Block.owed_openElse hopen
    -- What the `else` places, its block owed; what is left, it still owes.
    refine ⟨_, .of_chunk rfl rfl hblocks rfl rfl (fun other hother => ?_) ?_ htargets owns⟩
    · rcases List.mem_cons.1 hother with rfl | hother
      · exact .inr hlabels
      · exact .inl hother
    · rw [owed_cons, ← List.append_assoc, hplaced]
  | close =>
    obtain ⟨block, outer, hblocks, rfl, rfl⟩ := h
    refine ⟨_, .of_chunk rfl rfl hblocks rfl rfl (fun _ hother => .inl hother) ?_
      (block.targets_close number) owns⟩
    rw [Block.placedLabels_close]
  | ifBlock condition =>
    obtain ⟨name, block, labels, hnew, rfl, comparison, register, rfl⟩ := h
    exact ⟨_, .of_newBranch rfl rfl hnew owns⟩
  | loop condition =>
    obtain ⟨name, block, check, labels, hnew, rfl, comparison, register, rfl⟩ := h
    exact ⟨_, .of_newLoop rfl rfl hnew owns⟩
  | function name =>
    obtain ⟨-, block, labels, hnew, rfl, rfl⟩ := h
    exact ⟨_, .of_newFunction rfl rfl hnew owns⟩
  | goto name =>
    obtain ⟨hafter, rfl⟩ := h
    exact ⟨_, .of_jump rfl rfl hafter rfl rfl rfl owns⟩
  | ifGoto condition name =>
    obtain ⟨hafter, comparison, register, rfl⟩ := h
    exact ⟨_, .of_jump rfl rfl hafter rfl rfl rfl owns⟩
  | label name =>
    obtain ⟨hafter, rfl⟩ := h
    exact ⟨_, .of_label rfl rfl hafter rfl rfl owns⟩

end Build

/-! ## Line after line -/

namespace Source

def defines? (text : String) : Option String :=
  (Statement.parse text.toList).toOption.join.bind Statement.defines?

def jumpsTo? (text : String) : Option String :=
  (Statement.parse text.toList).toOption.join.bind Statement.jumpsTo?

/-- A line, counted from zero, defines a label. -/
def DefinedAt (lines : List String) (name : String) (index : Nat) : Prop :=
  lines[index]?.bind defines? = some name

/-- A line, counted from zero, jumps to a label. -/
def JumpedAt (lines : List String) (name : String) (index : Nat) : Prop :=
  lines[index]?.bind jumpsTo? = some name

end Source

open Source (defines? jumpsTo? DefinedAt JumpedAt)

/-- The labels that lines define, in order. -/
def Labels.defined (labels : Labels) (texts : List String) : List LabelId :=
  texts.filterMap fun text => (defines? text).bind labels.find?

/-- What holds of labels after some lines. The labels that were placed and those that open blocks
owe are, one for one, the labels without a name and those that the lines define. Items jump to
labels without a name or to the labels that their lines name, and no line that names one is without
such an item. -/
structure Ledger (lines : List String) (count : Nat) (control : Control)
    (out : List (Scope × Item)) : Prop where
  distinct : control.labels.Distinct
  owns : Build.Owns control
  balance : (placedLabels (out.map Prod.snd) ++ Build.owed control.blocks).Perm
    (control.labels.unnamed ++ control.labels.defined (lines.take count))
  found : ∀ text ∈ lines.take count, ∀ name, defines? text = some name →
    control.labels.find? name ≠ none
  targets : ∀ entry ∈ out, ∀ target ∈ entry.2.targets, target ∈ control.labels.unnamed ∨
    ∃ index < count, entry.2.lines = [index + 1] ∧ ∃ name, JumpedAt lines name index ∧
      control.labels.find? name = some target
  jumps : ∀ index < count, ∀ name, JumpedAt lines name index →
    ∃ entry ∈ out, ∃ target ∈ entry.2.targets, control.labels.find? name = some target

namespace Ledger

variable {lines : List String} {count : Nat} {text name : String} {said : Option Statement}
  {before after control : Control} {out items : List (Scope × Item)} {made : List LabelId}
  {id : LabelId}

theorem new (lines : List String) : Ledger lines 0 BuildState.initial.control [] where
  distinct id hid := by
    have hlt := Labels.lt_of_isNamed hid
    exact absurd hlt (Nat.not_lt_zero _)
  owns := ⟨fun _ hno => (by cases hno), fun _ hno => (by cases hno)⟩
  balance := .refl []
  found _ hno := by cases hno
  targets _ hno := by cases hno
  jumps _ hno := absurd hno (Nat.not_lt_zero _)

/-- The lines so far still define the labels that they did, and one more line defines what it
says. -/
theorem defined_succ (h : Ledger lines count before out) (hgrows : before.labels.Grows after.labels)
    (htext : lines[count]? = some text) :
    after.labels.defined (lines.take (count + 1)) =
      before.labels.defined (lines.take count) ++
        ((defines? text).bind after.labels.find?).toList := by
  obtain ⟨hcount, rfl⟩ := List.getElem?_eq_some_iff.1 htext
  unfold Labels.defined
  rw [List.take_succ_eq_append_getElem hcount, List.filterMap_append]
  congr 1
  refine List.filterMap_congr fun text hmem => ?_
  cases hdefines : defines? text with
  | none => rfl
  | some name =>
    obtain ⟨id, hid⟩ := Option.ne_none_iff_exists'.1 (h.found text hmem name hdefines)
    simp only [Option.bind_some, hid, hgrows.find? hid]

theorem line (h : Ledger lines count before out) (htext : lines[count]? = some text)
    (hparse : Statement.parse text.toList = .ok said)
    (hsteered : Build.SteeredLine (count + 1) before after items said) :
    Ledger lines (count + 1) after (out ++ items) := by
  obtain ⟨made, hbalances⟩ := hsteered.balances h.owns
  have hgrows := hbalances.gains.grows
  have hdefines : said.bind Statement.defines? = defines? text := by
    simp [defines?, hparse, Except.toOption]
  have hjumps : said.bind Statement.jumpsTo? = jumpsTo? text := by
    simp [jumpsTo?, hparse, Except.toOption]
  have hjumped : ∀ name, JumpedAt lines name count ↔ said.bind Statement.jumpsTo? = some name := by
    intro name
    rw [JumpedAt, htext, hjumps, Option.bind_some]
  constructor
  · exact hbalances.gains.distinct h.distinct
  · exact hbalances.owns
  · -- Labels are counted one by one: what was owed or is new is placed or still owed.
    rw [h.defined_succ hgrows htext, hbalances.gains.unnamed, ← hdefines, List.map_append]
    refine List.perm_iff_count.2 fun id => ?_
    have hold := h.balance.count_eq id
    have hnew := hbalances.balance.count_eq id
    simp only [placedLabels, List.flatMap_append, List.count_append] at hold hnew ⊢
    omega
  · intro other hother name hname
    -- The names that the lines define are found, those of this line since it.
    obtain ⟨hcount, rfl⟩ := List.getElem?_eq_some_iff.1 htext
    rw [List.take_succ_eq_append_getElem hcount] at hother
    rcases List.mem_append.1 hother with hother | hother
    · obtain ⟨id, hid⟩ := Option.ne_none_iff_exists'.1 (h.found other hother name hname)
      rw [hgrows.find? hid]
      simp
    · rw [List.mem_singleton.1 hother, ← hdefines] at hname
      exact hbalances.found name hname
  · intro entry hentry target htarget
    -- Jumps put out before keep their targets, as labels are only added.
    rcases List.mem_append.1 hentry with hentry | hentry
    · rcases h.targets entry hentry target htarget with
        hold | ⟨index, hlt, hline, name, hname, hfind⟩
      · rw [hbalances.gains.unnamed]
        exact .inl (List.mem_append_left _ hold)
      · exact .inr ⟨index, Nat.lt_succ_of_lt hlt, hline, name, hname, hgrows.find? hfind⟩
    · rcases hbalances.targets entry hentry target htarget with hnew | ⟨hline, name, hname, hfind⟩
      · exact .inl hnew
      · exact .inr ⟨count, Nat.lt_succ_self count, hline, name, (hjumped name).2 hname, hfind⟩
  · intro index hindex name hname
    rcases Nat.lt_succ_iff_lt_or_eq.1 hindex with hlt | rfl
    · obtain ⟨entry, hentry, target, htarget, hfind⟩ := h.jumps index hlt name hname
      exact ⟨entry, List.mem_append_left _ hentry, target, htarget, hgrows.find? hfind⟩
    · obtain ⟨entry, hentry, hentry'⟩ := hbalances.jumps name ((hjumped name).1 hname)
      exact ⟨entry, List.mem_append_right _ hentry, hentry'⟩

/-! ## Closed blocks -/

/-- A label of the source is defined by the lines that define its name. -/
theorem count_defined (hfind : control.labels.find? name = some id) (texts : List String) :
    (control.labels.defined texts).count id = (texts.map defines?).count (some name) := by
  rw [Labels.defined, List.count_filterMap, List.count, List.countP_map]
  refine List.countP_congr fun text _ => ?_
  simp only [beq_iff_eq, Function.comp_apply, Option.bind_eq_some_iff]
  constructor
  · rintro ⟨other, hother, hid⟩
    rw [hother, ← (Labels.isNamed_of_find? hid).2, (Labels.isNamed_of_find? hfind).2]
  · intro hname
    exact ⟨name, hname, hfind⟩

/-- With all blocks closed, every label without a name is placed once. -/
theorem count_unnamed (h : Ledger lines count control out) (hblocks : control.blocks = [])
    (hid : id ∈ control.labels.unnamed) : (placedLabels (out.map Prod.snd)).count id = 1 := by
  have hbalance := h.balance.count_eq id
  have hother : id ∉ control.labels.defined (lines.take count) := by
    intro hmem
    obtain ⟨text, -, hfind⟩ := List.mem_filterMap.1 hmem
    obtain ⟨name, -, hname⟩ := Option.bind_eq_some_iff.1 hfind
    exact Labels.not_mem_unnamed_of_find? hname hid
  rw [hblocks, List.count_append, List.count_append, List.count_eq_zero_of_not_mem hother,
    List.count_eq_one_of_mem control.labels.nodup_unnamed hid] at hbalance
  exact hbalance

/-- With all blocks closed, a label of the source is placed once for every line that defines it. -/
theorem count_named (h : Ledger lines count control out) (hblocks : control.blocks = [])
    (hfind : control.labels.find? name = some id) :
    (placedLabels (out.map Prod.snd)).count id =
      ((lines.take count).map defines?).count (some name) := by
  have hbalance := h.balance.count_eq id
  rw [hblocks, List.count_append, List.count_append, count_defined hfind,
    List.count_eq_zero_of_not_mem (Labels.not_mem_unnamed_of_find? hfind), Nat.zero_add] at hbalance
  exact hbalance

end Ledger

namespace Session

variable {lines : List String} {count : Nat} {session : Session}

/-- The books are balanced after any number of lines. -/
theorem Reached.ledger (h : Reached lines count session) :
    Ledger lines count session.state.control (turning session.events) := by
  induction h with
  | new => exact Ledger.new lines
  | line hbefore htext hline ih =>
    obtain ⟨said, hparse, hsteered, hevents⟩ := hbefore.steered hline
    rw [hevents]
    exact ih.line htext hparse hsteered

end Session

end ByteBasic
