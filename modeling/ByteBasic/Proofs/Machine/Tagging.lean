import ByteBasic.Machine.Instruction
import ByteBasic.Proofs.Tag.Numbering

/-!
# Operations as an enumeration

The operations are the variants of an enumeration that gives none of them a number, with one more
variant behind them for words that mean nothing. Their numbers are its places, and their mnemonics
the names of its variants in constant case.

**Theorem (`tables_of_operations`).** The tables of this enumeration are those that encoding,
decoding and assembling go by: the mnemonic and the number of an operation, and the operation of a
mnemonic.
-/

namespace ByteBasic.Opcode

open Tag (Tables Variant constantCase)

/-- The variant for an operation. -/
def variant : Opcode → Variant
  | .noOp => ⟨"NoOp", .unit, none⟩
  | .loadMem => ⟨"LoadMem", .unnamed, none⟩
  | .load => ⟨"Load", .unnamed, none⟩
  | .store => ⟨"Store", .unnamed, none⟩
  | .move => ⟨"Move", .unnamed, none⟩
  | .add => ⟨"AddS", .unnamed, none⟩
  | .addFloat => ⟨"AddF", .unnamed, none⟩
  | .or => ⟨"Or", .unnamed, none⟩
  | .and => ⟨"And", .unnamed, none⟩
  | .xor => ⟨"Xor", .unnamed, none⟩
  | .rotate => ⟨"Rotate", .unnamed, none⟩
  | .jumpEqual => ⟨"Jump", .unnamed, none⟩
  | .halt => ⟨"Halt", .unit, none⟩
  | .storePort => ⟨"StoreP", .unnamed, none⟩
  | .loadPort => ⟨"LoadP", .unnamed, none⟩
  | .jumpLess => ⟨"JumpL", .unnamed, none⟩

/-- All variants in the order of declaration. -/
def variants : List Variant :=
  all.map variant ++ [⟨"Unknown", .unnamed, none⟩]

/-- The number of the variant for words that mean nothing. -/
def unknownNumber : Nat := 16

theorem variant_mem (op : Opcode) : (op.variant, op.number) ∈ variants.zipIdx := by
  cases op <;> decide

/-- The mnemonic of an operation is the name of its variant in constant case. -/
theorem mnemonic_variant (op : Opcode) : constantCase op.variant.name = op.mnemonic := by
  cases op <;> decide +kernel

/-- The variants are numbered in the order of declaration. -/
theorem numberFrom_variants (reader : Tag.LiteralReader) :
    Tag.numberFrom reader 0 variants = .ok variants.zipIdx :=
  Tag.numberFrom_of_none (by decide) (by decide) (by decide)

theorem mnemonics_variants :
    (Tables.ofNumbered true variants.zipIdx).mnemonics =
      all.map (fun op => (op.mnemonic, op.number)) ++ [("UNKNOWN", unknownNumber)] := by
  decide +kernel

/-- Among the mnemonics of operations, a mnemonic is found exactly if there is an operation of it. -/
theorem find?_operations (mnemonic : String) :
    (all.map fun op => (op.mnemonic, op.number)).find? (fun entry => entry.1 == mnemonic) =
      (ofMnemonic? mnemonic).map fun op => (op.mnemonic, op.number) :=
  List.find?_map ..

/-- **The operations have the tables of their enumeration.** The enumeration has tables, however
expressions are read. At the place of its number, the table of mnemonics has the mnemonic of an
operation, and both are found by the variant; the number is found by the mnemonic as well, and a
mnemonic that leads to the number of an operation is that of this operation. -/
theorem tables_of_operations (reader : Tag.LiteralReader) :
    ∃ tables, Tables.ofVariants reader true variants = .ok tables ∧
      (∀ op : Opcode, tables.mnemonics[op.number]? = some (op.mnemonic, op.number) ∧
        tables.tag? op.variant.name = some op.number ∧
        tables.mnemonic? op.variant.name = some op.mnemonic ∧
        tables.tagOfMnemonic? op.mnemonic = some op.number) ∧
      ∀ mnemonic, ((tables.tagOfMnemonic? mnemonic).filter fun number => number != unknownNumber) =
        (ofMnemonic? mnemonic).map number := by
  refine ⟨.ofNumbered true variants.zipIdx,
    Tag.ofVariants_eq_ok.2 ⟨_, numberFrom_variants reader, rfl⟩, fun op => ⟨?_, ?_⟩,
    fun mnemonic => ?_⟩
  · rw [mnemonics_variants]
    cases op <;> rfl
  · have hnames : ((variants.zipIdx.map Prod.fst).map Variant.name).Nodup := by decide
    have hmnemonics : ((variants.zipIdx.map Prod.fst).map Variant.mnemonic).Nodup := by
      decide +kernel
    have hfound := Tag.found_ofNumbered true hnames hmnemonics op.variant_mem
    rwa [Variant.mnemonic, mnemonic_variant] at hfound
  · rw [Tables.tagOfMnemonic?, mnemonics_variants, List.find?_append, find?_operations]
    cases hop : ofMnemonic? mnemonic with
    | some op =>
      have hne : op.number ≠ unknownNumber := Nat.ne_of_lt op.number_lt
      simp [Option.filter, hne]
    | none =>
      -- Only the number for words that mean nothing is left, which counts for nothing.
      by_cases hunknown : "UNKNOWN" = mnemonic <;> simp [hunknown]

end ByteBasic.Opcode
