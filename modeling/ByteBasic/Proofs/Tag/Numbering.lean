import ByteBasic.Proofs.Tag.Naming
import ByteBasic.Tag.Table
import ByteBasic.Text.Decimal

/-!
# Tables of tags

The tables of an enumeration are made from one list, the variants with their numbers, so what has to
be shown is which numbers these are and when there are any.

**Reading.** How expressions are read is a parameter throughout. All that is asked of a reader is that
it reads integer literals by their values (`LiteralReader.Reads`).

**Numbers.** `Numbered` says what the numbers of variants are without counting through them: a
variant has the number that it is given, and any other one more than the variant before it. The count
ends without an error exactly if it stays within 64 bits (`CountFits`), no name is raw and the numbers
given are literals that fit (`exists_numberFrom_iff`), and the numbers are then those of `Numbered`.

**Tables.** They are all made from the variants with their numbers, so each of them tells the same
number at the place of a variant (`tell_ofNumbered`).

**Lookup.** A mnemonic is looked up among pairs and a variant among arms, and the first one with this
key counts (`find?_of_nodup`). No two mnemonics are the same if the names are in camel case, so that
each variant finds its own.

**Theorem (`tables_agree`).** When there are tables, what they hold, and what is found in them.
-/

namespace ByteBasic.Tag

/-! ## What the numbers are -/

/-- Integer literals have these values: a value that fits in 64 bits is read, and from a literal with
any other value no number is. -/
def LiteralReader.Reads (reader : LiteralReader) (value : String → Nat) : Prop :=
  ∀ text, reader.isInteger text = true →
    reader.read? text = if value text < numberLimit then some (value text) else none

/-- The number given to a variant, if it is given one, is an integer literal that fits in 64
bits. -/
def Variant.LiteralFits (reader : LiteralReader) (value : String → Nat) (variant : Variant) :
    Prop :=
  ∀ text, variant.discriminant = some text →
    reader.isInteger text = true ∧ value text < numberLimit

/-- The variants have these numbers, in order, when the count starts at `next`. -/
structure Numbered (value : String → Nat) (next : Nat) (variants : List Variant)
    (numbers : List Nat) : Prop where
  length_eq : numbers.length = variants.length
  given : ∀ (place : Nat) (variant : Variant) (text : String), variants[place]? = some variant →
    variant.discriminant = some text → numbers[place]? = some (value text)
  first : ∀ variant : Variant, variants[0]? = some variant → variant.discriminant = none →
    numbers[0]? = some next
  counted : ∀ (place : Nat) (variant : Variant) (number : Nat),
    variants[place + 1]? = some variant → variant.discriminant = none →
    numbers[place]? = some number → numbers[place + 1]? = some (number + 1)

/-- The count stays within 64 bits: as long as the variants have numbers, each number has a next
one. -/
def CountFits (reader : LiteralReader) (next : Nat) : List Variant → Prop
  | [] => True
  | variant :: variants => ∀ number, variant.number reader next = .ok number →
    number + 1 < numberLimit ∧ CountFits reader (number + 1) variants

variable {reader : LiteralReader} {value : String → Nat} {variant : Variant}
  {variants : List Variant} {numbered : List (Variant × Nat)} {next number : Nat}

/-! ## Counting -/

theorem number_of_none (hplain : variant.isRaw = false) (h : variant.discriminant = none) :
    variant.number reader next = .ok next := by
  simp [Variant.number, hplain, h]

theorem isRaw_of_number (h : variant.number reader next = .ok number) : variant.isRaw = false := by
  cases hraw : variant.isRaw with
  | false => rfl
  | true =>
    rw [Variant.number, if_pos hraw] at h
    cases h

theorem number_of_some (reads : reader.Reads value) (hplain : variant.isRaw = false)
    {text : String} (h : variant.discriminant = some text) :
    variant.number reader next = .ok number ↔
      reader.isInteger text = true ∧ value text < numberLimit ∧ value text = number := by
  simp only [Variant.number, hplain, h, Bool.false_eq_true, if_false]
  cases hinteger : reader.isInteger text with
  | false => simp
  | true =>
    rw [reads text hinteger]
    by_cases hlt : value text < numberLimit <;> simp [hlt]

theorem exists_number_iff (reads : reader.Reads value) (next : Nat) :
    (∃ number, variant.number reader next = .ok number) ↔
      variant.isRaw = false ∧ variant.LiteralFits reader value := by
  constructor
  · rintro ⟨number, hnumber⟩
    have hplain := isRaw_of_number hnumber
    refine ⟨hplain, fun text htext => ?_⟩
    obtain ⟨hinteger, hlt, -⟩ := (number_of_some reads hplain htext).1 hnumber
    exact ⟨hinteger, hlt⟩
  · rintro ⟨hplain, hfits⟩
    cases h : variant.discriminant with
    | none => exact ⟨next, number_of_none hplain h⟩
    | some text =>
      obtain ⟨hinteger, hlt⟩ := hfits text h
      exact ⟨value text, (number_of_some reads hplain h).2 ⟨hinteger, hlt, rfl⟩⟩

theorem numberFrom_cons :
    numberFrom reader next (variant :: variants) = .ok numbered ↔
      ∃ number rest, variant.number reader next = .ok number ∧ number + 1 < numberLimit ∧
        numberFrom reader (number + 1) variants = .ok rest ∧
        numbered = (variant, number) :: rest := by
  rw [numberFrom]
  cases variant.number reader next with
  | error error => simp
  | ok number =>
    simp only [Except.ok.injEq, exists_and_left, exists_eq_left']
    split
    next hlt => cases numberFrom reader (number + 1) variants <;> simp [Except.map, hlt, eq_comm]
    next hge => simp [hge]

/-- The count ends without an error exactly if it stays within 64 bits, no name is raw and the
numbers that are given are literals that fit. -/
theorem exists_numberFrom_iff (reads : reader.Reads value) :
    (∃ numbered, numberFrom reader next variants = .ok numbered) ↔
      CountFits reader next variants ∧ (∀ variant ∈ variants, variant.isRaw = false) ∧
        ∀ variant ∈ variants, variant.LiteralFits reader value := by
  induction variants generalizing next with
  | nil => simp [numberFrom, CountFits]
  | cons variant variants ih =>
    rw [List.forall_mem_cons, List.forall_mem_cons]
    constructor
    · rintro ⟨numbered, h⟩
      obtain ⟨number, rest, hnumber, hlt, hrest, -⟩ := numberFrom_cons.1 h
      obtain ⟨hplain, hfits⟩ := (exists_number_iff reads next).1 ⟨number, hnumber⟩
      obtain ⟨hcount, hallPlain, hallFit⟩ := ih.1 ⟨rest, hrest⟩
      refine ⟨fun other hother => ?_, ⟨hplain, hallPlain⟩, hfits, hallFit⟩
      obtain rfl : number = other := Except.ok.inj (hnumber.symm.trans hother)
      exact ⟨hlt, hcount⟩
    · rintro ⟨hcount, ⟨hplain, hallPlain⟩, hfits, hallFit⟩
      obtain ⟨number, hnumber⟩ := (exists_number_iff reads next).2 ⟨hplain, hfits⟩
      obtain ⟨hlt, hcount⟩ := hcount number hnumber
      obtain ⟨rest, hrest⟩ := ih.2 ⟨hcount, hallPlain, hallFit⟩
      exact ⟨_, numberFrom_cons.2 ⟨number, rest, hnumber, hlt, hrest, rfl⟩⟩

theorem map_fst_numberFrom (h : numberFrom reader next variants = .ok numbered) :
    numbered.map Prod.fst = variants := by
  induction variants generalizing next numbered with
  | nil => cases h; rfl
  | cons variant variants ih =>
    obtain ⟨number, rest, -, -, hrest, rfl⟩ := numberFrom_cons.1 h
    rw [List.map_cons, ih hrest]

/-- A count that ends without an error gives the variants their numbers. -/
theorem numbered_of_numberFrom (reads : reader.Reads value)
    (h : numberFrom reader next variants = .ok numbered) :
    Numbered value next variants (numbered.map Prod.snd) := by
  induction variants generalizing next numbered with
  | nil =>
    cases h
    exact ⟨rfl, by simp, by simp, by simp⟩
  | cons variant variants ih =>
    obtain ⟨number, rest, hnumber, -, hrest, rfl⟩ := numberFrom_cons.1 h
    have hplain := isRaw_of_number hnumber
    have hlater := ih hrest
    -- The first variant is numbered here; a later place is one less among the rest.
    refine ⟨by simp [hlater.length_eq], fun place other text hother htext => ?_,
      fun other hother hnone => ?_, fun place other count hother hnone hcount => ?_⟩
    · cases place with
      | zero =>
        cases hother
        exact congrArg some ((number_of_some reads hplain htext).1 hnumber).2.2.symm
      | succ place => exact hlater.given place other text hother htext
    · cases hother
      exact congrArg some (Except.ok.inj (hnumber.symm.trans (number_of_none hplain hnone)))
    · cases place with
      | zero =>
        cases hcount
        exact hlater.first other hother hnone
      | succ place => exact hlater.counted place other count hother hnone hcount

/-- Variants that are given no numbers are numbered by their places. -/
theorem numberFrom_of_none (hplain : ∀ variant ∈ variants, variant.isRaw = false)
    (hnone : ∀ variant ∈ variants, variant.discriminant = none)
    (hlt : next + variants.length < numberLimit) :
    numberFrom reader next variants = .ok (variants.zipIdx next) := by
  induction variants generalizing next with
  | nil => rfl
  | cons variant variants ih =>
    rw [List.forall_mem_cons] at hplain hnone
    rw [List.length_cons] at hlt
    have hlater : next + 1 + variants.length < numberLimit := by omega
    have hrest := ih hplain.2 hnone.2 hlater
    exact numberFrom_cons.2
      ⟨next, _, number_of_none hplain.1 hnone.1, by omega, hrest, List.zipIdx_cons⟩

/-! ## Tables -/

/-- What the tables hold: as many entries as there are variants, and at the place of each variant
its number in all three forms, with its mnemonic, its pattern and the visibility asked for. -/
structure Tables.Tell (tables : Tables) (isPublic : Bool) (variants : List Variant)
    (numbers : List Nat) : Prop where
  length_constants : tables.constants.length = variants.length
  length_mnemonics : tables.mnemonics.length = variants.length
  length_arms : tables.arms.length = variants.length
  length_mnemonicArms : tables.mnemonicArms.length = variants.length
  at_place : ∀ (place : Nat) (variant : Variant) (number : Nat), variants[place]? = some variant →
    numbers[place]? = some number →
    tables.constants[place]? = some ⟨variant.mnemonic ++ "_TAG", number, isPublic⟩ ∧
      tables.mnemonics[place]? = some (variant.mnemonic, number) ∧
      tables.arms[place]? = some (⟨variant.name, variant.shape⟩, number) ∧
      tables.mnemonicArms[place]? = some (⟨variant.name, variant.shape⟩, variant.mnemonic)

theorem ofVariants_eq_ok {isPublic : Bool} {tables : Tables} :
    Tables.ofVariants reader isPublic variants = .ok tables ↔
      ∃ numbered, numberFrom reader 0 variants = .ok numbered ∧
        tables = Tables.ofNumbered isPublic numbered := by
  rw [Tables.ofVariants]
  cases numberFrom reader 0 variants <;> simp [Except.map, eq_comm]

theorem exists_ofVariants_iff (reads : reader.Reads value) {isPublic : Bool} :
    (∃ tables, Tables.ofVariants reader isPublic variants = .ok tables) ↔
      CountFits reader 0 variants ∧ (∀ variant ∈ variants, variant.isRaw = false) ∧
        ∀ variant ∈ variants, variant.LiteralFits reader value := by
  rw [← exists_numberFrom_iff reads]
  constructor
  · rintro ⟨tables, htables⟩
    obtain ⟨numbered, hnumbered, -⟩ := ofVariants_eq_ok.1 htables
    exact ⟨numbered, hnumbered⟩
  · rintro ⟨numbered, hnumbered⟩
    exact ⟨_, ofVariants_eq_ok.2 ⟨numbered, hnumbered, rfl⟩⟩

theorem tell_ofNumbered (isPublic : Bool) (numbered : List (Variant × Nat)) :
    (Tables.ofNumbered isPublic numbered).Tell isPublic (numbered.map Prod.fst)
      (numbered.map Prod.snd) := by
  refine ⟨by simp [Tables.ofNumbered], by simp [Tables.ofNumbered], by simp [Tables.ofNumbered],
    by simp [Tables.ofNumbered], fun place variant number hvariant hnumber => ?_⟩
  have hentry : numbered[place]? = some (variant, number) := by
    rw [List.getElem?_map, Option.map_eq_some_iff] at hvariant hnumber
    obtain ⟨entry, hentry, rfl⟩ := hvariant
    obtain ⟨entry', hentry', rfl⟩ := hnumber
    rw [hentry] at hentry' ⊢
    cases hentry'
    rfl
  simp [Tables.ofNumbered, hentry, Variant.pattern]

/-! ## Lookup -/

/-- Under distinct keys, an entry is what is found by its key. -/
theorem find?_of_nodup {α : Type} {key : α → String} {entries : List α}
    (hnodup : (entries.map key).Nodup) {entry : α} (h : entry ∈ entries) :
    entries.find? (fun other => key other == key entry) = some entry := by
  cases hfind : entries.find? fun other => key other == key entry with
  | none => exact absurd (beq_self_eq_true (key entry)) (List.find?_eq_none.1 hfind _ h)
  | some other =>
    have hsame : key other = key entry := by simpa using List.find?_some hfind
    rw [List.inj_on_of_nodup_map hnodup (List.mem_of_find?_eq_some hfind) h hsame]

/-- Mnemonics of names in camel case are as distinct as the names. -/
theorem nodup_mnemonics (hcamel : ∀ variant ∈ variants, IsCamelCase variant.name)
    (hnames : (variants.map Variant.name).Nodup) : (variants.map Variant.mnemonic).Nodup := by
  refine List.Nodup.map_on (fun a ha b hb h => ?_) (List.Nodup.of_map _ hnames)
  exact List.inj_on_of_nodup_map hnames ha hb
    ((constantCase_inj (hcamel a ha) (hcamel b hb)).1 h)

theorem map_fst_mnemonics (isPublic : Bool) (numbered : List (Variant × Nat)) :
    (Tables.ofNumbered isPublic numbered).mnemonics.map Prod.fst =
      (numbered.map Prod.fst).map Variant.mnemonic := by
  simp [Tables.ofNumbered]

theorem tagOfMnemonic?_eq_none {tables : Tables} {mnemonic : String}
    (h : mnemonic ∉ tables.mnemonics.map Prod.fst) : tables.tagOfMnemonic? mnemonic = none := by
  rw [Tables.tagOfMnemonic?, Option.map_eq_none_iff, List.find?_eq_none]
  intro entry hentry hsame
  exact h (List.mem_map.2 ⟨entry, hentry, by simpa using hsame⟩)

/-- A variant finds the arm of its name. -/
theorem taken?_of_nodup {α : Type} {result : Variant × Nat → α}
    (hnames : ((numbered.map Prod.fst).map Variant.name).Nodup)
    (h : (variant, number) ∈ numbered) :
    taken? (numbered.map fun entry => (entry.1.pattern, result entry)) variant.name =
      some (result (variant, number)) := by
  have hkeys : (numbered.map fun entry => entry.1.name).Nodup := by
    rwa [List.map_map] at hnames
  have hfind := find?_of_nodup hkeys h
  rw [taken?, List.find?_map]
  simp only [Function.comp_def, Variant.pattern]
  rw [hfind]
  rfl

/-- What is found by the name of a variant and by its mnemonic. -/
theorem found_ofNumbered (isPublic : Bool)
    (hnames : ((numbered.map Prod.fst).map Variant.name).Nodup)
    (hmnemonics : ((numbered.map Prod.fst).map Variant.mnemonic).Nodup)
    (h : (variant, number) ∈ numbered) :
    (Tables.ofNumbered isPublic numbered).tag? variant.name = some number ∧
      (Tables.ofNumbered isPublic numbered).mnemonic? variant.name = some variant.mnemonic ∧
      (Tables.ofNumbered isPublic numbered).tagOfMnemonic? variant.mnemonic = some number := by
  refine ⟨taken?_of_nodup hnames h, taken?_of_nodup hnames h, ?_⟩
  have hkeys := hmnemonics
  rw [← map_fst_mnemonics isPublic] at hkeys
  have hmem : (variant.mnemonic, number) ∈ (Tables.ofNumbered isPublic numbered).mnemonics :=
    List.mem_map.2 ⟨(variant, number), h, rfl⟩
  rw [Tables.tagOfMnemonic?, find?_of_nodup hkeys hmem, Option.map_some]

/-- **The tables of an enumeration agree.** Let the count of the numbers stay within 64 bits. There
are tables exactly if no name is raw and every number that is given is a literal that fits. Then the
number of a variant is the one given to it, or one more than the number of the variant before it, or
zero for the first; and the constants, the mnemonics and the arms hold these numbers in the order of
the variants. If moreover the names are in camel case and pairwise distinct, then so are the
mnemonics; what is found for the mnemonic of a variant is the number of this variant, and nothing is
found for a text that is no mnemonic. -/
theorem tables_agree (reader : LiteralReader) (value : String → Nat) (reads : reader.Reads value)
    (isPublic : Bool) (variants : List Variant) (hcount : CountFits reader 0 variants) :
    ((∃ tables, Tables.ofVariants reader isPublic variants = .ok tables) ↔
        (∀ variant ∈ variants, variant.isRaw = false) ∧
        ∀ variant ∈ variants, variant.LiteralFits reader value) ∧
      (∀ tables, Tables.ofVariants reader isPublic variants = .ok tables →
        ∃ numbers, Numbered value 0 variants numbers ∧ tables.Tell isPublic variants numbers) ∧
      ((∀ variant ∈ variants, IsCamelCase variant.name) → (variants.map Variant.name).Nodup →
        (variants.map Variant.mnemonic).Nodup ∧
        ∀ tables, Tables.ofVariants reader isPublic variants = .ok tables →
          (∀ variant ∈ variants, ∃ number, tables.tag? variant.name = some number ∧
            tables.mnemonic? variant.name = some variant.mnemonic ∧
            tables.tagOfMnemonic? variant.mnemonic = some number) ∧
          ∀ mnemonic ∉ variants.map Variant.mnemonic, tables.tagOfMnemonic? mnemonic = none) := by
  refine ⟨?_, fun tables htables => ?_, fun hcamel hnames => ?_⟩
  · rw [exists_ofVariants_iff reads, and_iff_right hcount]
  · obtain ⟨numbered, hnumbered, rfl⟩ := ofVariants_eq_ok.1 htables
    have htell := tell_ofNumbered isPublic numbered
    rw [map_fst_numberFrom hnumbered] at htell
    exact ⟨_, numbered_of_numberFrom reads hnumbered, htell⟩
  · have hmnemonics := nodup_mnemonics hcamel hnames
    refine ⟨hmnemonics, fun tables htables => ?_⟩
    obtain ⟨numbered, hnumbered, rfl⟩ := ofVariants_eq_ok.1 htables
    rw [← map_fst_numberFrom hnumbered] at hnames hmnemonics ⊢
    refine ⟨fun variant hvariant => ?_, fun mnemonic hmnemonic => tagOfMnemonic?_eq_none ?_⟩
    · obtain ⟨⟨entry, number⟩, hentry, rfl⟩ := List.mem_map.1 hvariant
      exact ⟨number, found_ofNumbered isPublic hnames hmnemonics hentry⟩
    · rwa [map_fst_mnemonics]

/-- A reader of decimal digits. -/
def LiteralReader.decimal : LiteralReader where
  isInteger text := !text.isEmpty && Decimal.isNumeral text.toList
  read? text :=
    if Decimal.value text.toList < numberLimit then some (Decimal.value text.toList) else none

theorem LiteralReader.reads_decimal :
    decimal.Reads fun text => Decimal.value text.toList :=
  fun _ _ => rfl

/-- Given numbers among variants that are counted: the count goes on after each of them, also from a
smaller one. -/
theorem tables_agree_given :
    let variants : List Variant := [⟨"NoOp", .unit, none⟩, ⟨"LoadMem", .unnamed, some "16"⟩,
      ⟨"JumpL", .unnamed, none⟩, ⟨"R2D2", .named, some "7"⟩, ⟨"Unknown", .unnamed, none⟩]
    CountFits .decimal 0 variants ∧ (∀ variant ∈ variants, IsCamelCase variant.name) ∧
      (variants.map Variant.name).Nodup ∧
      ∃ tables, Tables.ofVariants .decimal true variants = .ok tables ∧
        tables.mnemonics =
          [("NO_OP", 0), ("LOAD_MEM", 16), ("JUMP_L", 17), ("R2_D2", 7), ("UNKNOWN", 8)] ∧
        (∃ numbers, Numbered (fun text => Decimal.value text.toList) 0 variants numbers ∧
          tables.Tell true variants numbers) ∧
        (∃ number, tables.tag? "R2D2" = some number ∧ tables.mnemonic? "R2D2" = some "R2_D2" ∧
          tables.tagOfMnemonic? "R2_D2" = some number) ∧
        tables.tagOfMnemonic? "JUMP" = none := by
  intro variants
  have htables : Tables.ofVariants .decimal true variants =
      .ok (.ofNumbered true (variants.zip [0, 16, 17, 7, 8])) := by decide +kernel
  obtain ⟨hcount, -⟩ := (exists_ofVariants_iff LiteralReader.reads_decimal).1 ⟨_, htables⟩
  obtain ⟨-, htell, hlookup⟩ :=
    tables_agree .decimal _ LiteralReader.reads_decimal true variants hcount
  have hcamel : ∀ variant ∈ variants, IsCamelCase variant.name := by decide +kernel
  have hnames : (variants.map Variant.name).Nodup := by decide +kernel
  obtain ⟨-, hfound⟩ := hlookup hcamel hnames
  obtain ⟨htag, hnone⟩ := hfound _ htables
  have hdroid := htag ⟨"R2D2", .named, some "7"⟩ (by simp [variants])
  have hmnemonic : (⟨"R2D2", .named, some "7"⟩ : Variant).mnemonic = "R2_D2" := by decide +kernel
  rw [hmnemonic] at hdroid
  exact ⟨hcount, hcamel, hnames, _, htables, by decide +kernel, htell _ htables, hdroid,
    hnone "JUMP" (by decide +kernel)⟩

/-- A raw name stands in the way of tables although nothing is wrong with the numbers. -/
theorem no_tables_of_raw_name :
    let variants : List Variant := [⟨"r#type", .unit, none⟩]
    CountFits .decimal 0 variants ∧
      (∀ variant ∈ variants,
        variant.LiteralFits .decimal fun text => Decimal.value text.toList) ∧
      ¬ ∃ tables, Tables.ofVariants .decimal true variants = .ok tables := by
  intro variants
  have herror : Tables.ofVariants .decimal true variants = .error .rawName := by decide +kernel
  refine ⟨fun number hnumber => (nomatch hnumber), ?_, fun ⟨tables, htables⟩ => ?_⟩
  · intro variant hvariant text htext
    rw [List.mem_singleton.1 hvariant] at htext
    cases htext
  · rw [herror] at htables
    cases htables

end ByteBasic.Tag
