import ByteBasic.Tag.ConstantCase

/-!
# Tag tables

Every variant of an enumeration has a number: the one it is given, or one more than the variant
before it, or zero if it is the first. `Tables.ofVariants` tells the numbers in three forms that
belong together: a constant for each variant, a table of mnemonics, and the pattern of each variant
with its number. The patterns also lead to the mnemonics.

A number is given by an expression, and reading expressions is left to a `LiteralReader`.

Each constant is named after its variant, which is not possible for a raw name (`r#type`): its mark
cannot stand inside another name. The count goes on after every variant, the last one too, and has
to stay within 64 bits. Where one of the two fails, there is no report.
-/

namespace ByteBasic.Tag

/-- What a variant carries. -/
inductive Shape
  | unit
  | named
  | unnamed
  deriving DecidableEq

/-- A variant of an enumeration, with the text of the expression that gives its number. -/
structure Variant where
  name : String
  shape : Shape
  discriminant : Option String
  deriving DecidableEq

/-- A reader of the expressions that give numbers. -/
structure LiteralReader where
  /-- Whether an expression is an integer literal. -/
  isInteger : String → Bool
  /-- The number of 64 bits that is read from an integer literal, if it is one. -/
  read? : String → Option Nat

/-- Why a variant has no number. -/
inductive TagError
  /-- It has a raw name. -/
  | rawName
  /-- It is given something other than an integer literal. -/
  | notLiteral
  /-- It is given a number that does not fit in 64 bits. -/
  | tooLarge
  /-- It has the last number of 64 bits, and the count cannot go on. -/
  | countOverflow
  deriving DecidableEq

/-- The wording of a tag error that is reported. -/
def TagError.message? : TagError → Option String
  | .rawName => none
  | .notLiteral => some "Only literal discriminants are allowed"
  | .tooLarge => some "number too large to fit in target type"
  | .countOverflow => none

/-- The first number that does not fit in 64 bits. -/
def numberLimit : Nat := 0x10000000000000000

def Variant.isRaw (variant : Variant) : Bool :=
  ['r', '#'].isPrefixOf variant.name.toList

/-- The number of a variant whose turn is `next`. -/
def Variant.number (reader : LiteralReader) (variant : Variant) (next : Nat) :
    Except TagError Nat :=
  if variant.isRaw then .error .rawName
  else match variant.discriminant with
    | none => .ok next
    | some text =>
      if reader.isInteger text then
        match reader.read? text with
        | some value => .ok value
        | none => .error .tooLarge
      else .error .notLiteral

/-- The variants with their numbers, in order; the first that has none decides the error. -/
def numberFrom (reader : LiteralReader) (next : Nat) :
    List Variant → Except TagError (List (Variant × Nat))
  | [] => .ok []
  | variant :: variants =>
    match variant.number reader next with
    | .error error => .error error
    | .ok value =>
      if value + 1 < numberLimit then
        (numberFrom reader (value + 1) variants).map ((variant, value) :: ·)
      else .error .countOverflow

/-- The mnemonic of a variant: its name in constant case. -/
def Variant.mnemonic (variant : Variant) : String :=
  constantCase variant.name

/-- What an arm matches: the values of the variant of this name. Its shape is that of what the variant
carries, none of which is looked at. -/
structure Pattern where
  name : String
  shape : Shape
  deriving DecidableEq

def Variant.pattern (variant : Variant) : Pattern :=
  ⟨variant.name, variant.shape⟩

/-- The constant that holds the number of a variant. -/
structure Constant where
  name : String
  value : Nat
  isPublic : Bool
  deriving DecidableEq

/-- The numbers of the variants in their three forms and the mnemonics of the patterns, each in the
order of declaration. -/
structure Tables where
  constants : List Constant
  mnemonics : List (String × Nat)
  arms : List (Pattern × Nat)
  mnemonicArms : List (Pattern × String)
  deriving DecidableEq

/-- The tables of variants whose numbers are known. -/
def Tables.ofNumbered (isPublic : Bool) (numbered : List (Variant × Nat)) : Tables where
  constants := numbered.map fun (variant, value) => ⟨variant.mnemonic ++ "_TAG", value, isPublic⟩
  mnemonics := numbered.map fun (variant, value) => (variant.mnemonic, value)
  arms := numbered.map fun (variant, value) => (variant.pattern, value)
  mnemonicArms := numbered.map fun (variant, _) => (variant.pattern, variant.mnemonic)

/-- The tables of an enumeration. -/
def Tables.ofVariants (reader : LiteralReader) (isPublic : Bool) (variants : List Variant) :
    Except TagError Tables :=
  (numberFrom reader 0 variants).map (Tables.ofNumbered isPublic)

/-- What the arms give for a value of the variant with a given name: the first arm whose pattern has
this name is taken. -/
def taken? {α : Type} (arms : List (Pattern × α)) (name : String) : Option α :=
  (arms.find? fun arm => arm.1.name == name).map Prod.snd

/-- The number of a value of the variant with a given name. -/
def Tables.tag? (tables : Tables) (name : String) : Option Nat :=
  taken? tables.arms name

def Tables.mnemonic? (tables : Tables) (name : String) : Option String :=
  taken? tables.mnemonicArms name

/-- The number of the first variant with a given mnemonic. -/
def Tables.tagOfMnemonic? (tables : Tables) (mnemonic : String) : Option Nat :=
  (tables.mnemonics.find? fun entry => entry.1 == mnemonic).map Prod.snd

end ByteBasic.Tag
