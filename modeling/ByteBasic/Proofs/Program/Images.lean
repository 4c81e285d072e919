import ByteBasic.Proofs.Code.Resolution
import ByteBasic.Proofs.Compiler.Turning
import ByteBasic.Proofs.Program.Correctness

/-!
# Images and memory maps

Memory holds the code from the bottom up and the variables from the top down. `Image.WellFormed` is
what keeps the two apart and makes the code mean what it says: nothing in it is an unknown word, jumps
go to words, and it is overwritten only by a program that asks for it.

**Theorem (`compiled_image_wellFormed`).** The image of every source that is accepted is well-formed.

Jumps are even because labels are at offsets of items, which are made of words (`even_itemOffset`). The
size of the code is that of all items put out, because every item belongs to a stream that is laid out
(`perm_laidOut`). Stores come from items, and those are guarded (`Session.guarded_take`).
-/

namespace ByteBasic

/-! ## Offsets -/

theorem even_itemOffset (items : List Item) (index : Nat) : itemOffset items index % 2 = 0 := by
  unfold itemOffset
  rw [← length_assembleFrom (fun _ => 0) 0]
  exact Nat.mul_mod_right 2 _

theorem itemOffset_le (items : List Item) (index : Nat) :
    itemOffset items index ≤ (items.map Item.size).sum := by
  have hall : itemOffset items items.length = (items.map Item.size).sum := by
    rw [itemOffset, List.take_length]
  rcases Nat.le_total index items.length with h | h
  · rw [← hall]
    exact itemOffset_mono items h
  · exact Nat.le_of_eq (by rw [itemOffset, List.take_of_length_le h])

/-- A place where an item starts or the code ends. -/
def IsBoundary (items : List Item) (offset : Nat) : Prop :=
  ∃ index, offset = itemOffset items index

theorem isBoundary_labelPlace (items : List Item) (label : LabelId) :
    IsBoundary items (labelPlace items label) := by
  unfold labelPlace
  cases labelIndex? items label with
  | none => exact ⟨0, rfl⟩
  | some index => exact ⟨index, rfl⟩

/-- A boundary that fits in a byte or not: its byte is even and within the code. -/
theorem IsBoundary.byte {items : List Item} {offset : Nat} (h : IsBoundary items offset) :
    (UInt8.ofNat offset).toNat % 2 = 0 ∧
      (UInt8.ofNat offset).toNat ≤ (items.map Item.size).sum := by
  obtain ⟨index, rfl⟩ := h
  have heven := even_itemOffset items index
  have hle := itemOffset_le items index
  rw [UInt8.toNat_ofNat']
  omega

/-! ## Instructions of items -/

section Instructions

variable {place : LabelId → Nat} {items : List Item} {item : Item} {i : Instruction}

theorem mem_assembleFrom (offset : Nat) (h : i ∈ assembleFrom place offset items) :
    ∃ (index : Nat) (item : Item), items[index]? = some item ∧
      i ∈ item.instructions place (offset + itemOffset items index) := by
  induction items generalizing offset with
  | nil => cases h
  | cons first rest ih =>
    rcases List.mem_append.1 h with h | h
    · exact ⟨0, first, rfl, h⟩
    · obtain ⟨index, item, hitem, hmem⟩ := ih _ h
      refine ⟨index + 1, item, hitem, ?_⟩
      rw [itemOffset_cons_succ, ← Nat.add_assoc]
      exact hmem

/-- The tests and the last jump of a comparison. -/
theorem mem_instructions_compare {comparison : Comparison} {register : UInt8}
    {accept reject : Target} {line offset : Nat}
    (h : i ∈ (Item.compare comparison register accept reject line).instructions place offset) :
    ∃ test r, i = .jump test r (UInt8.ofNat ((comparison.verdict.pick accept reject).offset place
        (offset + (Item.compare comparison register accept reject line).size))) ∨
      ∃ id, i = .jump test r (UInt8.ofNat (place id)) := by
  rcases List.mem_append.1 h with h | h
  · obtain ⟨test, -, rfl⟩ := List.mem_map.1 h
    exact ⟨test, register, .inl rfl⟩
  · cases hother : comparison.verdict.opposite.pick accept reject with
    | next =>
      rw [hother] at h
      cases h
    | label id =>
      rw [hother] at h
      exact ⟨.equal, 0, .inr ⟨id, List.mem_singleton.1 h⟩⟩

/-- A store is an item of its own. -/
theorem eq_of_store_mem {offset : Nat} {r address : UInt8}
    (h : Instruction.store r address ∈ item.instructions place offset) :
    item = .instruction (.store r address) := by
  cases item with
  | instruction i => rw [List.mem_singleton.1 h]
  | compare comparison register accept reject line =>
    obtain ⟨_, _, heq | ⟨_, heq⟩⟩ := mem_instructions_compare h <;> cases heq
  | _ => simp [Item.instructions] at h

/-- A jump goes to a label or to the end of its item. -/
theorem jump_mem_instructions (plain : ∀ i, item = .instruction i → i.Plain) {offset : Nat}
    {test : JumpTest} {r operand : UInt8}
    (h : Instruction.jump test r operand ∈ item.instructions place offset) :
    (∃ id, operand = UInt8.ofNat (place id)) ∨ operand = UInt8.ofNat (offset + item.size) := by
  cases item with
  | instruction i =>
    obtain rfl := List.mem_singleton.1 h
    exact (plain _ rfl).elim
  | jump test' r' target line =>
    cases List.mem_singleton.1 h
    exact .inl ⟨target, rfl⟩
  | goto target line =>
    cases List.mem_singleton.1 h
    exact .inl ⟨target, rfl⟩
  | call main line =>
    simp only [Item.instructions, List.mem_cons, reduceCtorEq, Instruction.jump.injEq,
      List.not_mem_nil, or_false, false_or] at h
    exact .inl ⟨main, h.2.2⟩
  | compare comparison register accept reject line =>
    obtain ⟨_, _, heq | ⟨id, heq⟩⟩ := mem_instructions_compare h
    · cases heq
      cases comparison.verdict.pick accept reject with
      | label id => exact .inl ⟨id, rfl⟩
      | next => exact .inr rfl
    · cases heq
      exact .inl ⟨id, rfl⟩
  | _ => simp [Item.instructions] at h

/-- Jumps of code whose labels are at their items go to boundaries. -/
theorem isBoundary_of_jump (plain : ∀ i, Item.instruction i ∈ items → i.Plain) {test : JumpTest}
    {r operand : UInt8}
    (h : Instruction.jump test r operand ∈ assembleFrom (labelPlace items) 0 items) :
    ∃ offset, operand = UInt8.ofNat offset ∧ IsBoundary items offset := by
  obtain ⟨index, item, hitem, hmem⟩ := mem_assembleFrom 0 h
  have hplain : ∀ i, item = .instruction i → i.Plain := by
    rintro i rfl
    exact plain i (List.mem_of_getElem? hitem)
  rw [Nat.zero_add] at hmem
  rcases jump_mem_instructions hplain hmem with ⟨id, rfl⟩ | rfl
  · exact ⟨_, rfl, isBoundary_labelPlace items id⟩
  · exact ⟨_, rfl, index + 1, (itemOffset_succ hitem).symm⟩

end Instructions

/-! ## Words -/

theorem words_of_imageBytes (code : List Instruction) :
    (Image.mk (imageBytes code)).words = code.map Instruction.word := by
  rw [← Image.words_ofWords (code.map Instruction.word), Image.ofWords, List.flatMap_map]
  rfl

/-- Code that can be encoded and has nothing unknown is read back. -/
theorem decode_of_imageBytes {code : List Instruction}
    (fits : ∀ i ∈ code, i.Fits) (known : ∀ i ∈ code, ∀ word, i ≠ .unknown word) :
    (Image.mk (imageBytes code)).decode = code := by
  rw [Image.decode, words_of_imageBytes, List.map_map]
  have hread : ∀ i ∈ code, (Instruction.decode ∘ Instruction.word) i = id i :=
    fun i hi => Instruction.decode_word (fits i hi) (known i hi)
  rw [List.map_congr_left hread, List.map_id]

/-! ## Streams -/

section Streams

variable {functions : Nat} {scope : Scope} {item : Item} {out : List (Scope × Item)}

theorem ofStream_cons_same (scope : Scope) (item : Item) (out : List (Scope × Item)) :
    ofStream scope ((scope, item) :: out) = item :: ofStream scope out := by
  simp [ofStream]

theorem ofStream_cons_other {other : Scope} (h : other ≠ scope) (item : Item)
    (out : List (Scope × Item)) : ofStream scope ((other, item) :: out) = ofStream scope out := by
  simp [ofStream, h]

/-- The streams of fewer functions do not have what another function puts out. -/
theorem laidOut_cons_later {id : FunctionId} (h : functions ≤ id) (item : Item)
    (out : List (Scope × Item)) :
    laidOut functions ((.function id, item) :: out) = laidOut functions out := by
  induction functions with
  | zero =>
    have hother : Scope.function id ≠ .global := fun heq => by cases heq
    simp [laidOut, ofStream_cons_other hother]
  | succ functions ih =>
    have hother : Scope.function id ≠ .function functions := by
      rintro heq
      cases heq
      exact Nat.not_succ_le_self _ h
    rw [laidOut_succ, laidOut_succ, ih (Nat.le_of_succ_le h), ofStream_cons_other hother]

/-- What is put out into a stream that exists is laid out once. -/
theorem perm_laidOut_cons (h : scope.Exists functions) (item : Item) (out : List (Scope × Item)) :
    (laidOut functions ((scope, item) :: out)).Perm (item :: laidOut functions out) := by
  cases scope with
  | global =>
    have hother : ∀ id, Scope.global ≠ .function id := fun id heq => by cases heq
    simp only [laidOut, ofStream_cons_same, ofStream_cons_other (hother _), List.cons_append]
    exact .refl _
  | function id =>
    have hid : id < functions := h id rfl
    clear h
    induction hid with
    | refl =>
      rw [laidOut_succ, laidOut_succ, laidOut_cons_later (Nat.le_refl id), ofStream_cons_same]
      exact List.perm_middle
    | @step functions hlt ih =>
      have hother : Scope.function id ≠ .function functions := by
        rintro heq
        cases heq
        exact Nat.lt_irrefl _ hlt
      rw [laidOut_succ, laidOut_succ, ofStream_cons_other hother]
      exact ih.append_right _

/-- The items that are laid out are those that were put out, in another order. -/
theorem perm_laidOut (h : ∀ entry ∈ out, entry.1.Exists functions) :
    (laidOut functions out).Perm (out.map Prod.snd) := by
  induction out with
  | nil =>
    have hnone : laidOut functions [] = [] := List.flatMap_eq_nil_iff.2 fun _ _ => rfl
    rw [hnone]
    exact .refl []
  | cons entry out ih =>
    obtain ⟨scope, item⟩ := entry
    have hrest := ih fun other hother => h other (List.mem_cons_of_mem _ hother)
    exact (perm_laidOut_cons (h _ (List.mem_cons_self ..)) item out).trans (hrest.cons item)

end Streams

/-! ## Images of sources -/

/-- What holds of an image and of the session that it comes from. -/
structure Image.WellFormed (lines : List String) (session : Session) (image : Image) : Prop where
  even : image.size % 2 = 0
  size_le : image.size ≤ 256
  size_eq : image.size = (session.emissions.map fun emission => emission.item.size).sum
  above : ∀ id < session.state.storage.vars.length,
    image.size ≤ (session.state.storage.get id).address.toNat
  distinct : ∀ i < session.state.storage.vars.length, ∀ j < session.state.storage.vars.length,
    (session.state.storage.get i).address = (session.state.storage.get j).address → i = j
  words : ∀ word ∈ image.words, (∀ unknown, Instruction.decode word ≠ .unknown unknown) ∧
    (Instruction.decode word).encode = .ok word
  jumps : ∀ test register operand, Instruction.jump test register operand ∈ image.decode →
    operand.toNat % 2 = 0 ∧ operand.toNat ≤ image.size
  stores : ∀ register address, Instruction.store register address ∈ image.decode →
    (∃ id < session.state.storage.vars.length, (session.state.storage.get id).address = address) ∨
      Session.AssignsCell lines lines.length address

namespace Session

variable {session : Session} {lines : List String} {count : Nat}

/-- The items that are laid out are those that were put out. -/
theorem perm_items (hrange : session.InRange count) (hguarded : session.Guarded lines count) :
    session.items.Perm ((streamed session.events).map Prod.snd) := by
  rw [items_eq]
  refine perm_laidOut fun entry hentry id hid => ?_
  obtain ⟨emission, hmem, rfl⟩ := List.mem_map.1 hentry
  obtain ⟨⟨_, -, -, hemission⟩, -⟩ := hrange.emissions emission hmem
  exact Nat.lt_of_lt_of_le (hemission.state.current id hid)
    (hguarded.emissions emission hmem).2.functions

theorem sum_items (hrange : session.InRange count) (hguarded : session.Guarded lines count) :
    (session.items.map Item.size).sum =
      (session.emissions.map fun emission => emission.item.size).sum := by
  rw [((perm_items hrange hguarded).map Item.size).sum_nat, streamed, List.map_map, List.map_map]
  rfl

/-- A store of the code goes to a slot or to a cell that a line names. -/
theorem stores_of_items (hrange : session.InRange count) (hguarded : session.Guarded lines count)
    {r address : UInt8} (h : Item.instruction (.store r address) ∈ session.items) :
    (∃ id < session.state.storage.vars.length, (session.state.storage.get id).address = address) ∨
      AssignsCell lines count address := by
  obtain ⟨emission, hmem, hitem⟩ := mem_items h
  obtain ⟨⟨_, -, -, hemission⟩, -⟩ := hrange.emissions emission hmem
  obtain ⟨hstores, hlater⟩ := hguarded.emissions emission hmem
  refine (hstores.stores r address hitem).imp_left ?_
  rintro ⟨id, hid, haddress⟩
  -- Slots count down from the top of memory, then as now.
  have hnow := Nat.lt_of_lt_of_le hid hlater.vars
  refine ⟨id, hnow, ?_⟩
  rw [hrange.state.tidy.address id hnow, ← hemission.state.tidy.address id hid]
  exact haddress

/-- A finished image is the code of the items with each label where it stands among them; the code is all
of known instructions. -/
theorem bytes_of_finish (hrange : session.InRange lines.length)
    (hguarded : session.Guarded lines lines.length) {image : Image}
    (h : session.finish lines = .ok image) :
    image.bytes = imageBytes (assembleFrom (labelPlace session.items) 0 session.items) ∧
      (∀ i ∈ assembleFrom (labelPlace session.items) 0 session.items, i.Fits) ∧
      ∀ i ∈ assembleFrom (labelPlace session.items) 0 session.items, ∀ word, i ≠ .unknown word := by
  obtain ⟨hassemble, -⟩ := finish_eq_ok h
  obtain ⟨layout, hlower, hpatch⟩ := assemble_ok hassemble
  have hassembled := assembled_of_layout hlower hpatch
  have hcode := assembleFrom_places hguarded.unplaced (fun _ hitem _ => hrange.label_lt hitem) hlower
    hpatch
  have hbytes := hassembled.bytes_eq
  have hfits := hassembled.fits
  rw [hcode] at hbytes hfits
  refine ⟨hbytes, hfits, fun i hi => ?_⟩
  obtain ⟨index, item, hitem, hmem⟩ := mem_assembleFrom 0 hi
  refine known_of_mem_instructions (fun j hj => hrange.plain ?_) hmem
  rw [← hj]
  exact List.mem_of_getElem? hitem

/-- An image that is finished is well-formed. -/
theorem wellFormed_of_finish (hrange : session.InRange lines.length)
    (hguarded : session.Guarded lines lines.length) {image : Image}
    (h : session.finish lines = .ok image) : image.WellFormed lines session := by
  obtain ⟨-, hcheck⟩ := finish_eq_ok h
  obtain ⟨hsmall, hclear⟩ := checkSize_eq_ok hcheck
  obtain ⟨hbytes, hfits, hknown⟩ := bytes_of_finish hrange hguarded h
  have hsize : image.size = (session.items.map Item.size).sum := by
    rw [Image.size, hbytes, length_imageBytes, length_assembleFrom]
  have himage : image = ⟨imageBytes (assembleFrom (labelPlace session.items) 0 session.items)⟩ := by
    rw [← hbytes]
  have hdecode := decode_of_imageBytes hfits hknown
  have hwords := words_of_imageBytes (assembleFrom (labelPlace session.items) 0 session.items)
  -- The words of the image are those of known instructions, in order.
  rw [← himage] at hdecode hwords
  exact {
    even := by
      rw [Image.size, hbytes, length_imageBytes]
      exact Nat.mul_mod_right 2 _
    size_le := hsmall
    size_eq := hsize.trans (sum_items hrange hguarded)
    above := hclear
    distinct := hrange.state.tidy.distinct
    words := fun word hword => by
      rw [hwords] at hword
      obtain ⟨i, hi, rfl⟩ := List.mem_map.1 hword
      rw [Instruction.decode_word (hfits i hi) (hknown i hi)]
      exact ⟨hknown i hi, Instruction.encode_eq_ok_iff.2 ⟨hfits i hi, rfl⟩⟩
    jumps := fun test register operand hjump => by
      rw [hdecode] at hjump
      obtain ⟨offset, rfl, hboundary⟩ := isBoundary_of_jump (fun _ => hrange.plain) hjump
      rw [hsize]
      exact hboundary.byte
    stores := fun register address hstore => by
      rw [hdecode] at hstore
      obtain ⟨index, item, hitem, hmem⟩ := mem_assembleFrom 0 hstore
      obtain rfl := eq_of_store_mem hmem
      exact stores_of_items hrange hguarded (List.mem_of_getElem? hitem) }

end Session

/-- **Images are well-formed.** The image of an accepted source is made of whole words and fits into
memory below the slots of its variables, which are all different; its size is that of all items that
were put out. Each word is that of a known instruction. Jumps go to words of the code or to its end,
and stores go to slots or to the cells that assignments of the source name. -/
theorem compiled_image_wellFormed {source : String} {image : Image}
    (h : compile source = .ok image) :
    ∃ session, Session.linesFrom (Text.lines source) (Text.lines source) 1 .new = (.ok (), session) ∧
      session.finish (Text.lines source) = .ok image ∧
      image.WellFormed (Text.lines source) session := by
  obtain ⟨session, hlines, hfinish⟩ := compile_eq_ok h
  have hruns := Session.runs_new (Nat.le_refl (Text.lines source).length)
  rw [hlines] at hruns
  have hguarded := (Session.guarded_take (Text.lines source) _ (Nat.le_refl _)).2 session
  rw [List.take_length] at hguarded
  exact ⟨session, hlines, hfinish,
    Session.wellFormed_of_finish (hruns.ok rfl) (hguarded hlines) hfinish⟩

/-- A loop that calls a function, after a store to a cell. -/
theorem compiled_image_wellFormed_cell :
    let source := "var n\nm40 = n\nfunction count()\nn += 1\nend\nwhile n < 5\ncount()\nend\nexit 0"
    ∃ image session, compile source = .ok image ∧ image.size = 36 ∧
      session.state.storage.vars.length = 1 ∧ image.WellFormed (Text.lines source) session := by
  intro source
  have hcompile : (compile source).toOption = some ⟨[17, 255, 49, 64, 16, 255, 33, 5, 241, 20, 177, 20,
      32, 18, 66, 1, 176, 26, 176, 4, 32, 0, 66, 2, 192, 0, 33, 1, 18, 255, 82, 33, 50, 255, 67,
      16]⟩ := by decide +kernel
  have hvars : (Session.linesFrom (Text.lines source) (Text.lines source) 1
      .new).2.state.storage.vars.length = 1 := by decide +kernel
  cases hresult : compile source with
  | error report =>
    rw [hresult] at hcompile
    cases hcompile
  | ok image =>
    obtain ⟨session, hlines, -, hformed⟩ := compiled_image_wellFormed hresult
    rw [hlines] at hvars
    rw [hresult] at hcompile
    cases hcompile
    exact ⟨_, session, rfl, rfl, hvars, hformed⟩

end ByteBasic
