import ByteBasic.Proofs.Compiler.Conditions

/-!
# Labels and blocks

Labels are only ever added (`Labels.Grows`), so a number of a label stays in range, and a name that
has a label keeps it. A block is opened with labels of its own and closed with the items that place
them. Before control can go elsewhere, everything is written back (`Storage.Flushes`).
-/

namespace ByteBasic

namespace Labels

/-- Labels have been added. -/
def Grows (before after : Labels) : Prop :=
  before.entries <+: after.entries

variable {labels before middle after : Labels} {name : String} {id : LabelId}

theorem Grows.refl (labels : Labels) : labels.Grows labels :=
  List.prefix_rfl

theorem Grows.trans (h₁ : before.Grows middle) (h₂ : middle.Grows after) : before.Grows after :=
  List.IsPrefix.trans h₁ h₂

theorem Grows.size_le (h : before.Grows after) : before.size ≤ after.size :=
  h.length_le

theorem Grows.find? (h : before.Grows after) (hfind : before.find? name = some id) :
    after.find? name = some id := by
  obtain ⟨more, hmore⟩ := h
  unfold Labels.find? at hfind ⊢
  rw [← hmore, List.findIdx?_append, hfind]
  rfl

theorem grows_add (labels : Labels) (label : Label) : labels.Grows (labels.add label).2 :=
  ⟨[label], rfl⟩

theorem size_add (labels : Labels) (label : Label) :
    (labels.add label).2.size = labels.size + 1 := by
  simp [add, size]

/-- The label of a name exists, and is found under that name from now on. -/
theorem named_spec (labels : Labels) (name : String) :
    labels.Grows (labels.named name).2 ∧ (labels.named name).1 < (labels.named name).2.size ∧
      (labels.named name).2.find? name = some (labels.named name).1 := by
  unfold named
  cases hfind : labels.find? name with
  | some id =>
    obtain ⟨hlt, -⟩ := List.findIdx?_eq_some_iff_getElem.1 hfind
    exact ⟨.refl labels, hlt, hfind⟩
  | none =>
    refine ⟨grows_add labels _, ?_, ?_⟩
    · rw [size_add]
      exact Nat.lt_succ_self _
    · unfold Labels.find? at hfind ⊢
      simp only [add, List.findIdx?_append, hfind]
      simp [size]

end Labels

namespace Block

variable (labels : Labels) (name : String) (line : Nat)

theorem newBranch_spec : ∃ otherwise main after,
    (newBranch labels name line).1 = ⟨.branch otherwise false, main, after, line⟩ ∧
      labels.Grows (newBranch labels name line).2 ∧
      ∀ label ∈ [otherwise, main, after], label < (newBranch labels name line).2.size := by
  refine ⟨_, _, _, rfl, ?_, ?_⟩
  · exact ((Labels.grows_add _ _).trans (Labels.grows_add _ _)).trans (Labels.grows_add _ _)
  · simp [newBranch, Labels.fresh, Labels.add, Labels.size]

theorem newLoop_spec : ∃ check main after,
    (newLoop labels name line).1 = ⟨.loop check, main, after, line⟩ ∧
      (newLoop labels name line).2.1 = check ∧
      labels.Grows (newLoop labels name line).2.2 ∧
      ∀ label ∈ [check, main, after], label < (newLoop labels name line).2.2.size := by
  refine ⟨_, _, _, rfl, rfl, ?_, ?_⟩
  · exact ((Labels.grows_add _ _).trans (Labels.grows_add _ _)).trans (Labels.grows_add _ _)
  · simp [newLoop, Labels.fresh, Labels.add, Labels.size]

theorem newFunction_spec (id : FunctionId) : ∃ main after,
    (newFunction labels name id line).1 = ⟨.function id, main, after, line⟩ ∧
      labels.Grows (newFunction labels name id line).2 ∧
      ∀ label ∈ [main, after], label < (newFunction labels name id line).2.size := by
  refine ⟨_, _, rfl, ?_, ?_⟩
  · exact (Labels.grows_add _ _).trans (Labels.grows_add _ _)
  · simp [newFunction, Labels.fresh, Labels.add, Labels.size]

/-- An `else` belongs to an `if` without one. -/
theorem openElse_eq_ok {block opened : Block} {number : Nat} {chunk : List Item}
    (h : block.openElse number = .ok (opened, chunk)) :
    ∃ otherwise, block.kind = .branch otherwise false ∧
      opened = { block with kind := .branch otherwise true } ∧
      chunk = [.goto block.after number, .label otherwise number] := by
  unfold Block.openElse at h
  split at h
  · next otherwise hkind =>
    cases h
    exact ⟨otherwise, hkind, rfl, rfl⟩
  · cases h
  · cases h

theorem InRange.of_le {block : Block} {before after : BuildState} {number later : Nat}
    (h : block.InRange before number) (hlabels : before.labels.size ≤ after.labels.size)
    (hfunctions : before.functions.length ≤ after.functions.length) (hle : number ≤ later) :
    block.InRange after later :=
  ⟨fun label hl => Nat.lt_of_lt_of_le (h.labels label hl) hlabels,
    fun id hid => Nat.lt_of_lt_of_le (h.function id hid) hfunctions,
    h.line.1, Nat.le_trans h.line.2 hle⟩

end Block

/-! ## States in range -/

namespace BuildState.Ranged

variable {number : Nat} {state : BuildState}

theorem mono (h : state.Ranged number) {later : Nat} (hle : number ≤ later) :
    state.Ranged later where
  tidy := h.tidy
  forward := h.forward
  current := h.current
  mains := h.mains
  blocks block hblock :=
    ⟨(h.blocks block hblock).labels, (h.blocks block hblock).function,
      (h.blocks block hblock).line.1, Nat.le_trans (h.blocks block hblock).line.2 hle⟩
  declared hvars := by
    obtain ⟨line, hline, hfrom, hto⟩ := h.declared hvars
    exact ⟨line, hline, hfrom, Nat.le_trans hto hle⟩

theorem grow (h : state.Ranged number) {labels : Labels} (hgrows : state.labels.Grows labels) :
    { state with labels := labels }.Ranged number where
  tidy := h.tidy
  forward := h.forward
  current := h.current
  mains function hf := Nat.lt_of_lt_of_le (h.mains function hf) hgrows.size_le
  blocks block hblock :=
    ⟨fun label hl => Nat.lt_of_lt_of_le ((h.blocks block hblock).labels label hl) hgrows.size_le,
      (h.blocks block hblock).function, (h.blocks block hblock).line⟩
  declared := h.declared

theorem count (h : state.Ranged number) (blockCount : Nat) :
    { state with blockCount := blockCount }.Ranged number :=
  ⟨h.tidy, h.forward, h.current, h.mains,
    fun block hblock => ⟨(h.blocks block hblock).labels, (h.blocks block hblock).function,
      (h.blocks block hblock).line⟩, h.declared⟩

theorem setBlocks (h : state.Ranged number) {blocks : List Block}
    (hblocks : ∀ block ∈ blocks, block.InRange state number) :
    { state with blocks := blocks }.Ranged number :=
  ⟨h.tidy, h.forward, h.current, h.mains,
    fun block hblock => ⟨(hblocks block hblock).labels, (hblocks block hblock).function,
      (hblocks block hblock).line⟩, h.declared⟩

theorem setGlobal (h : state.Ranged number) : { state with current := .global }.Ranged number :=
  ⟨h.tidy, h.forward, fun id hid => (by cases hid), h.mains,
    fun block hblock => ⟨(h.blocks block hblock).labels, (h.blocks block hblock).function,
      (h.blocks block hblock).line⟩, h.declared⟩

end BuildState.Ranged

namespace Storage

/-- Everything is written back and given up. -/
structure Flushes (before : Storage) (code : List Instruction) (after : Storage) : Prop where
  serves : Serves True [] before code after
  vacant : after.Vacant

theorem Vacant.toUnbound {storage : Storage} (h : storage.Vacant) (htidy : storage.Tidy) :
    storage.Unbound :=
  fun id => h.unbound htidy.agrees id

end Storage

namespace Build

open Storage (Flushes)

variable {number : Nat} {state before middle after : BuildState}

/-- What a step leaves of the state: labels may be added and variables move between slots and
registers. -/
structure Continues (before after : BuildState) : Prop where
  labels : before.labels.Grows after.labels
  functions : after.functions = before.functions
  current : after.current = before.current
  blocks : after.blocks = before.blocks
  same : before.storage.SameVars after.storage

theorem Continues.refl (state : BuildState) : Continues state state :=
  ⟨.refl _, rfl, rfl, rfl, .refl _⟩

theorem Continues.trans (h₁ : Continues before middle) (h₂ : Continues middle after) :
    Continues before after :=
  ⟨h₁.labels.trans h₂.labels, h₂.functions.trans h₁.functions, h₂.current.trans h₁.current,
    h₂.blocks.trans h₁.blocks, h₁.same.trans h₂.same⟩

theorem Continues.push (h : Continues before after) (block : Block) :
    Continues { before with blocks := block :: before.blocks }
      { after with blocks := block :: after.blocks } :=
  ⟨h.labels, h.functions, h.current, congrArg (List.cons block) h.blocks, h.same⟩

theorem Continues.setBlocks (h : Continues before after) (blocks : List Block) :
    Continues { before with blocks := blocks } { after with blocks := blocks } :=
  ⟨h.labels, h.functions, h.current, rfl, h.same⟩

theorem Stays.continues (h : Stays before after) : Continues before after := by
  have hlabels : before.labels.Grows after.labels := by
    rw [h.alike.labels]
    exact .refl _
  exact ⟨hlabels, by rw [h.alike], h.alike.current, by rw [h.alike], h.same⟩

theorem gives_flush (hstate : state.Ranged number) (unpinned : state.storage.Unpinned) :
    Gives number flush state fun _ after items =>
      ∃ code, items = straight state.current code ∧ Stays state after ∧
        Flushes state.storage code after.storage := by
  obtain ⟨vacant, events, hrun, hserves, hvacant⟩ := Storage.flush_serves hstate.tidy unpinned
  refine (gives_advance hstate hrun hserves).imp fun _ after items h => ?_
  obtain ⟨-, rfl, hitems, hadv⟩ := h
  exact ⟨_, hitems, hadv.stays, hserves, hvacant⟩

theorem yields_flush (hstate : state.Ranged number) (unpinned : state.storage.Unpinned) :
    Yields number flush state fun _ after items =>
      ∃ code, items = straight state.current code ∧ Stays state after ∧
        Flushes state.storage code after.storage :=
  (gives_flush hstate unpinned).1

theorem yields_namedLabel (name : String) :
    Yields number (namedLabel name) state fun id after items =>
      items = [] ∧ ∃ labels, after = { state with labels := labels } ∧
        state.labels.Grows labels ∧ id < labels.size ∧ labels.find? name = some id := by
  unfold namedLabel
  obtain ⟨hgrows, hlt, hfind⟩ := state.labels.named_spec name
  exact .get (.modify hgrows.size_le (.pure ⟨rfl, _, rfl, hgrows, hlt, hfind⟩))

theorem yields_blockName (keyword : String) :
    Yields number (blockName keyword) state fun _ after items =>
      items = [] ∧ ∃ count, after = { state with blockCount := count } := by
  unfold blockName
  exact .get (.modify (Nat.le_refl _) (.pure ⟨rfl, _, rfl⟩))

theorem yields_emitItem (hstate : state.Ranged number) {item : Item} (fits : item.Fits)
    (hinstruction : ∀ i, item ≠ .instruction i)
    (labels : ∀ label ∈ item.labels, label < state.labels.size)
    (lines : ∀ line ∈ item.lines, line = number) :
    Yields number (emit item) state fun _ after items =>
      Stays state after ∧ after.storage = state.storage ∧ items = [(state.current, item)] :=
  (yields_emit hstate fits (fun i hi => absurd hi (hinstruction i)) labels lines).imp
    fun _ _ _ h => ⟨.of_alike hstate h.1 h.2.1, h.2⟩

theorem yields_emitLabel (hstate : state.Ranged number) {label : LabelId}
    (hlabel : label < state.labels.size) :
    Yields number (emit (.label label number)) state fun _ after items =>
      Stays state after ∧ after.storage = state.storage ∧
        items = [(state.current, .label label number)] := by
  refine yields_emitItem hstate trivial (fun i => by simp) (fun l hl => ?_) fun l hl => ?_
  · rw [List.mem_singleton.1 hl]
    exact hlabel
  · exact List.mem_singleton.1 hl

theorem yields_emitGoto (hstate : state.Ranged number) {label : LabelId}
    (hlabel : label < state.labels.size) :
    Yields number (emit (.goto label number)) state fun _ after items =>
      Stays state after ∧ after.storage = state.storage ∧
        items = [(state.current, .goto label number)] := by
  refine yields_emitItem hstate trivial (fun i => by simp) (fun l hl => ?_) fun l hl => ?_
  · rw [List.mem_singleton.1 hl]
    exact hlabel
  · exact List.mem_singleton.1 hl

theorem yields_emitAll (hstate : state.Ranged number) {items : List Item}
    (h : ∀ item ∈ items, item.Fits ∧ (∀ i, item ≠ .instruction i) ∧
      (∀ label ∈ item.labels, label < state.labels.size) ∧ ∀ line ∈ item.lines, line = number) :
    Yields number (emitAll items) state fun _ after out =>
      Stays state after ∧ after.storage = state.storage ∧
        out = items.map fun item => (state.current, item) := by
  induction items generalizing state with
  | nil => exact .pure ⟨.of_alike hstate (.refl state) rfl, rfl, rfl⟩
  | cons item rest ih =>
    obtain ⟨hfits, hno, hlabels, hlines⟩ := h item (by simp)
    refine (yields_emitItem hstate hfits hno hlabels hlines).bind fun _ s items' hs => ?_
    obtain ⟨hstays, hstorage, rfl⟩ := hs
    refine (ih (hstays.ranged hstate) fun later hl => ?_).imp fun _ after out hrest => ?_
    · rw [hstays.alike.labels]
      exact h later (by simp [hl])
    · obtain ⟨hstays', hstorage', rfl⟩ := hrest
      refine ⟨hstays.trans hstays', hstorage'.trans hstorage, ?_⟩
      rw [hstays.alike.current]
      rfl

theorem yields_openBlock (hstate : state.Ranged number) {block : Block}
    (hblock : block.InRange state number) (hmain : block.main < state.labels.size) :
    Yields number (openBlock block number) state fun _ after items =>
      after.Ranged number ∧ Continues { state with blocks := block :: state.blocks } after ∧
        after.storage = state.storage ∧ items = [(state.current, .label block.main number)] := by
  refine (yields_emitLabel hstate hmain).bind fun _ s items h => ?_
  obtain ⟨hstays, hstorage, rfl⟩ := h
  have hranged := hstays.ranged hstate
  have hcontinues := hstays.continues
  refine .modify_last (Nat.le_refl _) ⟨hranged.setBlocks fun b hb => ?_,
    ⟨hcontinues.labels, hcontinues.functions, hcontinues.current, by rw [hcontinues.blocks],
      hcontinues.same⟩, hstorage, by simp⟩
  rcases List.mem_cons.1 hb with rfl | hb
  · exact hblock.of_le hcontinues.labels.size_le (Nat.le_of_eq (by rw [hcontinues.functions]))
      (Nat.le_refl _)
  · exact hranged.blocks b hb

/-! ## Opening blocks -/

theorem Stays.grown {opened : BuildState} (h : Stays state after) (hstate : state.Ranged number)
    {labels : Labels} {count : Nat} (hgrows : after.labels.Grows labels)
    (hopened : opened = { after with blockCount := count, labels := labels }) :
    opened.Ranged number ∧ Continues state opened ∧ opened.storage = after.storage ∧
      opened.labels = labels := by
  subst hopened
  exact ⟨((h.ranged hstate).count count).grow hgrows,
    h.continues.trans ⟨hgrows, rfl, rfl, rfl, .refl _⟩, rfl, rfl⟩

theorem yields_entry (hstate : state.Ranged number) (vacant : state.storage.Vacant)
    (condition : Condition) {block : Block} {reject : LabelId}
    (hblock : block.InRange state number) (hmain : block.main < state.labels.size)
    (hreject : reject < state.labels.size) :
    Yields number (do
        compare condition .next (.label reject) number
        openBlock block number) state fun _ after items =>
      after.Ranged number ∧ Continues { state with blocks := block :: state.blocks } after ∧
        ∃ items', Compared condition .next (.label reject) number state.current state.storage
            after.storage items' ∧
          items = items' ++ [(state.current, .label block.main number)] := by
  refine (yields_compare hstate vacant condition fun l hl => ?_).bind fun _ tested items' h => ?_
  · rw [List.mem_singleton.1 hl]
    exact hreject
  · obtain ⟨hstays, hcompared⟩ := h
    have hlabels := hstays.alike.labels
    have hfunctions := hstays.continues.functions
    refine (yields_openBlock (hstays.ranged hstate)
      (hblock.of_le (Nat.le_of_eq (by rw [hlabels])) (Nat.le_of_eq (by rw [hfunctions]))
        (Nat.le_refl _)) (by rw [hlabels]; exact hmain)).imp fun _ after items h => ?_
    obtain ⟨hranged, hcontinues, hstorage, rfl⟩ := h
    refine ⟨hranged, (hstays.continues.push block).trans hcontinues, items', ?_, ?_⟩
    · rw [hstorage]
      exact hcompared
    · rw [hstays.alike.current]

def OpensBranch (condition : Condition) (number : Nat) (state after : BuildState)
    (items : List (Scope × Item)) : Prop :=
  ∃ block otherwise code flushed items', block.kind = .branch otherwise false ∧
    block.line = number ∧ Continues { state with blocks := block :: state.blocks } after ∧
    Flushes state.storage code flushed ∧
    Compared condition .next (.label otherwise) number state.current flushed after.storage items' ∧
    items = straight state.current code ++ (items' ++ [(state.current, .label block.main number)])

theorem yields_openBranch (hstate : state.Ranged number) (unpinned : state.storage.Unpinned)
    (hnumber : 1 ≤ number) (condition : Condition) :
    Yields number (openBranch condition number) state fun _ after items =>
      after.Ranged number ∧ OpensBranch condition number state after items := by
  refine (yields_flush hstate unpinned).bind fun _ flushed items h => ?_
  obtain ⟨code, rfl, hstays, hflushes⟩ := h
  refine (yields_blockName "if").bind fun name counted _ h => ?_
  obtain ⟨rfl, count, hcounted⟩ := h
  subst hcounted
  refine .get ?_
  -- The three labels of the branch are made first.
  obtain ⟨otherwise, main, behind, hblock, hgrows, hlabels⟩ :=
    Block.newBranch_spec flushed.labels name number
  generalize Block.newBranch flushed.labels name number = new at hblock hgrows hlabels ⊢
  obtain ⟨block, labels⟩ := new
  obtain rfl : block = _ := hblock
  refine .modify hgrows.size_le ?_
  obtain ⟨opened, hopened⟩ :
    ∃ s, s = { flushed with blockCount := count, labels := labels } := ⟨_, rfl⟩
  obtain ⟨hranged, hcontinues, hstorage, hsize⟩ := hstays.grown hstate hgrows hopened
  have hlabels : ∀ l ∈ [otherwise, main, behind], l < opened.labels.size := by
    rw [hsize]
    exact hlabels
  -- A failed condition goes to the other branch, or to its place if there is none.
  have hblock : Block.InRange ⟨.branch otherwise false, main, behind, number⟩ opened number :=
    ⟨hlabels, fun id hid => (by cases hid), hnumber, Nat.le_refl _⟩
  rw [← hopened]
  refine (yields_entry hranged (by rw [hstorage]; exact hflushes.vacant) condition hblock
    (hlabels main (by simp)) (hlabels otherwise (by simp))).imp fun _ after items h => ?_
  obtain ⟨hafter, hpushed, items', hcompared, rfl⟩ := h
  refine ⟨hafter, _, otherwise, code, flushed.storage, items', rfl, rfl,
    (hcontinues.push _).trans hpushed, hflushes, ?_, ?_⟩
  · rw [← hstorage, ← hcontinues.current]
    exact hcompared
  · rw [List.nil_append, hcontinues.current]

def OpensLoop (condition : Condition) (number : Nat) (state after : BuildState)
    (items : List (Scope × Item)) : Prop :=
  ∃ block check code flushed items', block.kind = .loop check ∧ block.line = number ∧
    Continues { state with blocks := block :: state.blocks } after ∧
    Flushes state.storage code flushed ∧
    Compared condition .next (.label block.after) number state.current flushed after.storage items' ∧
    items = straight state.current code ++ ((state.current, .label check number) ::
      (items' ++ [(state.current, .label block.main number)]))

theorem yields_openLoop (hstate : state.Ranged number) (unpinned : state.storage.Unpinned)
    (hnumber : 1 ≤ number) (condition : Condition) :
    Yields number (openLoop condition number) state fun _ after items =>
      after.Ranged number ∧ OpensLoop condition number state after items := by
  refine (yields_flush hstate unpinned).bind fun _ flushed items h => ?_
  obtain ⟨code, rfl, hstays, hflushes⟩ := h
  refine (yields_blockName "while").bind fun name counted _ h => ?_
  obtain ⟨rfl, count, hcounted⟩ := h
  subst hcounted
  refine .get ?_
  -- The three labels of the loop are made first.
  obtain ⟨check, main, behind, hblock, hcheck, hgrows, hlabels⟩ :=
    Block.newLoop_spec flushed.labels name number
  generalize Block.newLoop flushed.labels name number = new at hblock hcheck hgrows hlabels ⊢
  obtain ⟨block, check', labels⟩ := new
  obtain rfl : block = _ := hblock
  obtain rfl : check' = check := hcheck
  refine .modify hgrows.size_le ?_
  obtain ⟨opened, hopened⟩ :
    ∃ s, s = { flushed with blockCount := count, labels := labels } := ⟨_, rfl⟩
  obtain ⟨hranged, hcontinues, hstorage, hsize⟩ := hstays.grown hstate hgrows hopened
  have hlabels : ∀ l ∈ [check', main, behind], l < opened.labels.size := by
    rw [hsize]
    exact hlabels
  rw [← hopened]
  -- The first of them is placed where the condition is tested.
  refine (yields_emitLabel hranged (hlabels check' (by simp))).bind fun _ placed items h => ?_
  obtain ⟨hplaced, hstorage', rfl⟩ := h
  rw [← hplaced.alike.labels] at hlabels
  have hblock : Block.InRange ⟨.loop check', main, behind, number⟩ placed number :=
    ⟨hlabels, fun id hid => (by cases hid), hnumber, Nat.le_refl _⟩
  refine (yields_entry (hplaced.ranged hranged)
    (by rw [hstorage', hstorage]; exact hflushes.vacant) condition hblock
    (hlabels main (by simp)) (hlabels behind (by simp))).imp fun _ after items h => ?_
  obtain ⟨hafter, hpushed, items', hcompared, rfl⟩ := h
  refine ⟨hafter, _, check', code, flushed.storage, items', rfl, rfl,
    ((hcontinues.trans hplaced.continues).push _).trans hpushed, hflushes, ?_, ?_⟩
  · rw [← hstorage, ← hstorage', ← hcontinues.current, ← hplaced.alike.current]
    exact hcompared
  · rw [List.nil_append, ← hcontinues.current, ← hplaced.alike.current]
    rfl

/-! ## Closing blocks -/

/-- The items of a block are made of its labels. -/
theorem inRange_label {label : LabelId} {size : Nat} (h : label < size) (number : Nat) :
    (Item.label label number).Fits ∧ (∀ i, Item.label label number ≠ .instruction i) ∧
      (∀ l ∈ (Item.label label number).labels, l < size) ∧
      ∀ line ∈ (Item.label label number).lines, line = number :=
  ⟨trivial, fun i => by simp, by simpa [Item.labels] using h, by simp [Item.lines]⟩

theorem inRange_goto {label : LabelId} {size : Nat} (h : label < size) (number : Nat) :
    (Item.goto label number).Fits ∧ (∀ i, Item.goto label number ≠ .instruction i) ∧
      (∀ l ∈ (Item.goto label number).labels, l < size) ∧
      ∀ line ∈ (Item.goto label number).lines, line = number :=
  ⟨trivial, fun i => by simp, by simpa [Item.labels] using h, by simp [Item.lines]⟩

def OpensElse (number : Nat) (state after : BuildState) (items : List (Scope × Item)) : Prop :=
  ∃ block otherwise outer code, state.blocks = block :: outer ∧
    block.kind = .branch otherwise false ∧
    Continues { state with blocks := { block with kind := .branch otherwise true } :: outer } after ∧
    Flushes state.storage code after.storage ∧
    items = straight state.current code ++
      [(state.current, .goto block.after number), (state.current, .label otherwise number)]

theorem yields_openElse (hstate : state.Ranged number) (unpinned : state.storage.Unpinned) :
    Yields number (openElse number) state fun _ after items =>
      after.Ranged number ∧ OpensElse number state after items := by
  refine (yields_flush hstate unpinned).bind fun _ flushed items h => ?_
  obtain ⟨code, rfl, hstays, hflushes⟩ := h
  have hranged := hstays.ranged hstate
  refine .get ?_
  cases hblocks : flushed.blocks with
  | nil => exact .fail (.inr (.inr (.inr rfl)))
  | cons block outer =>
    have hblock := hranged.blocks block (by simp [hblocks])
    simp only
    cases helse : block.openElse number with
    | error error => exact .fail (.inr (.inr (.inr rfl)))
    | ok opening =>
      obtain ⟨opened, chunk⟩ := opening
      obtain ⟨otherwise, hkind, rfl, rfl⟩ := Block.openElse_eq_ok helse
      -- The block has its labels since it was opened, and they still exist.
      have hlabels : ∀ l ∈ [otherwise, block.main, block.after], l < flushed.labels.size := by
        have := hblock.labels
        simp only [Block.labels, hkind] at this
        exact this
      refine .modify (Nat.le_refl _) ?_
      have hopened : BuildState.Ranged number
          { flushed with blocks := { block with kind := .branch otherwise true } :: outer } := by
        refine hranged.setBlocks fun b hb => ?_
        rcases List.mem_cons.1 hb with rfl | hb
        · exact ⟨hlabels, fun id hid => (by cases hid), hblock.line⟩
        · exact hranged.blocks b (by simp [hblocks, hb])
      refine (yields_emitAll hopened fun item hitem => ?_).imp fun _ after items h => ?_
      · simp only [List.mem_cons, List.not_mem_nil, or_false] at hitem
        rcases hitem with rfl | rfl
        · exact inRange_goto (hlabels _ (by simp)) number
        · exact inRange_label (hlabels _ (by simp)) number
      · obtain ⟨hafter, hstorage, rfl⟩ := h
        refine ⟨hafter.ranged hopened, block, otherwise, outer, code, ?_, hkind, ?_, ?_, ?_⟩
        · rw [← hblocks, hstays.continues.blocks]
        · exact (hstays.continues.setBlocks _).trans hafter.continues
        · rw [hstorage]
          exact hflushes
        · simp [hstays.alike.current]

/-- The items that close a block are in range with it. -/
theorem inRange_close {block : Block} (hblock : block.InRange state number) :
    ∀ item ∈ block.close number, item.Fits ∧ (∀ i, item ≠ .instruction i) ∧
      (∀ label ∈ item.labels, label < state.labels.size) ∧ ∀ line ∈ item.lines, line = number := by
  have hlabels := hblock.labels
  have hret : Item.ret.Fits ∧ (∀ i, Item.ret ≠ .instruction i) ∧
      (∀ label ∈ Item.ret.labels, label < state.labels.size) ∧
      ∀ line ∈ Item.ret.lines, line = number :=
    ⟨trivial, fun i => by simp, by simp [Item.labels], by simp [Item.lines]⟩
  intro item hitem
  rcases hkind : block.kind with ⟨otherwise, _ | _⟩ | ⟨check⟩ | ⟨id⟩ <;>
    simp only [Block.close, Block.labels, hkind, List.mem_cons, List.not_mem_nil, or_false,
      forall_eq_or_imp, forall_eq] at hitem hlabels
  · rcases hitem with rfl | rfl
    · exact inRange_label hlabels.1 number
    · exact inRange_label hlabels.2.2 number
  · rw [hitem]
    exact inRange_label hlabels.2.2 number
  · rcases hitem with rfl | rfl
    · exact inRange_goto hlabels.1 number
    · exact inRange_label hlabels.2.2 number
  · rcases hitem with rfl | rfl
    · exact hret
    · exact inRange_label hlabels.2 number

/-- The stream after the end of a block. -/
def streamBehind (block : Block) (current : Scope) : Scope :=
  if isFunctionBlock block then .global else current

def Closes (number : Nat) (state after : BuildState) (items : List (Scope × Item)) : Prop :=
  ∃ block outer code, state.blocks = block :: outer ∧
    Continues { state with blocks := outer, current := streamBehind block state.current } after ∧
    Flushes state.storage code after.storage ∧
    items = straight state.current code ++
      (block.close number).map fun item => (state.current, item)

theorem yields_closeBlock (hstate : state.Ranged number) (unpinned : state.storage.Unpinned) :
    Yields number (closeBlock number) state fun _ after items =>
      after.Ranged number ∧ Closes number state after items := by
  refine (yields_flush hstate unpinned).bind fun _ flushed items h => ?_
  obtain ⟨code, rfl, hstays, hflushes⟩ := h
  have hranged := hstays.ranged hstate
  refine .get ?_
  cases hblocks : flushed.blocks with
  | nil => exact .fail (.inr (.inr (.inr rfl)))
  | cons block outer =>
    have hblock := hranged.blocks block (by simp [hblocks])
    refine .modify (Nat.le_refl _) ?_
    -- The block is taken off before its items are put out.
    have hpopped : BuildState.Ranged number { flushed with blocks := outer } :=
      hranged.setBlocks fun b hb => hranged.blocks b (by simp [hblocks, hb])
    refine (yields_emitAll hpopped (inRange_close (hblock.of_le (Nat.le_refl _) (Nat.le_refl _)
      (Nat.le_refl _)))).bind fun _ closed items h => ?_
    obtain ⟨hclosed, hstorage, rfl⟩ := h
    have hstart : state.blocks = block :: outer := by rw [← hblocks, hstays.continues.blocks]
    have hitems : straight state.current code ++
        ((block.close number).map (fun item => (flushed.current, item)) ++ []) =
        straight state.current code ++ (block.close number).map fun item => (state.current, item) := by
      rw [List.append_nil, hstays.alike.current]
    have hpop : Continues { state with blocks := outer } closed :=
      (hstays.continues.setBlocks outer).trans hclosed.continues
    have hflushed : Flushes state.storage code closed.storage := by
      rw [hstorage]
      exact hflushes
    cases hfunction : isFunctionBlock block with
    | false =>
      refine .pure ⟨hclosed.ranged hpopped, block, outer, code, hstart, ?_, hflushed, hitems⟩
      have hstream : streamBehind block state.current = state.current := by
        simp [streamBehind, hfunction]
      rw [hstream]
      exact hpop
    | true =>
      -- Behind a function, code goes to the global stream.
      refine .modify_last (Nat.le_refl _)
        ⟨(hclosed.ranged hpopped).setGlobal, block, outer, code, hstart, ?_, hflushed, hitems⟩
      have hstream : streamBehind block state.current = .global := by
        simp [streamBehind, hfunction]
      rw [hstream]
      exact ⟨hpop.labels, hpop.functions, rfl, hpop.blocks, hpop.same⟩

end Build

end ByteBasic
