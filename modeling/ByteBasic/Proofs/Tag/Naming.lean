import ByteBasic.Tag.ConstantCase
import Mathlib

/-!
# Names told apart by their mnemonics

Two names may have one mnemonic, since constant case keeps no letter cases: `AB` and `A_b` both
become `A_B`. It is the underscores that tell where an upper-case letter was, so a name that has none
of its own and starts with an upper-case letter can be read back from its mnemonic (`camelChars`).

Main result: `constantCase_inj`.
-/

namespace ByteBasic.Tag

/-! ## Reading constant case back -/

/-- The characters of a name after the first, read back from constant case: an underscore says that
the next one is upper case, and no other is. -/
def camelRest : List Char → List Char
  | '_' :: c :: rest => c :: camelRest rest
  | c :: rest => c.toLower :: camelRest rest
  | [] => []

def camelChars : List Char → List Char
  | [] => []
  | c :: rest => c :: camelRest rest

theorem camelRest_underscore (c : Char) (rest : List Char) :
    camelRest ('_' :: c :: rest) = c :: camelRest rest := rfl

theorem camelRest_of_ne {c : Char} (h : c ≠ '_') (rest : List Char) :
    camelRest (c :: rest) = c.toLower :: camelRest rest := by
  rw [camelRest]
  exact fun _ _ hc => absurd hc h

/-- No character becomes an underscore. -/
theorem toUpper_ne_underscore {c : Char} (h : c ≠ '_') : c.toUpper ≠ '_' := by
  by_cases hlower : c.isLower
  · intro hc
    have hupper : c.toUpper.isUpper = true := by
      rw [Char.isUpper_toUpper_eq_isAlpha, Char.isAlpha, hlower, Bool.or_true]
    rw [hc] at hupper
    exact absurd hupper (by decide)
  · rwa [Char.toUpper_eq_of_not_isLower hlower]

theorem camelRest_constantRest {text : List Char} (h : '_' ∉ text) :
    camelRest (constantRest text) = text := by
  induction text with
  | nil => rfl
  | cons c rest ih =>
    obtain ⟨hc, hrest⟩ := not_or.1 (List.mem_cons.not.1 h)
    rw [constantRest]
    split
    next => rw [camelRest_underscore, ih hrest]
    next hupper =>
      rw [camelRest_of_ne (toUpper_ne_underscore (Ne.symm hc)), ih hrest,
        Char.toLower_toUpper_eq_toLower, Char.toLower_eq_of_not_isUpper hupper]

/-! ## Names of variants -/

/-- The name is in camel case: its first character is an upper-case letter of ASCII, and none is an
underscore. -/
structure IsCamelCase (name : String) : Prop where
  head : name.toList.head?.any Char.isUpper = true
  plain : '_' ∉ name.toList

instance (name : String) : Decidable (IsCamelCase name) :=
  decidable_of_iff (name.toList.head?.any Char.isUpper = true ∧ '_' ∉ name.toList)
    ⟨fun ⟨head, plain⟩ => ⟨head, plain⟩, fun ⟨head, plain⟩ => ⟨head, plain⟩⟩

theorem camelChars_constantChars {name : String} (h : IsCamelCase name) :
    camelChars (constantChars name.toList) = name.toList := by
  obtain ⟨hhead, hplain⟩ := h
  cases hname : name.toList with
  | nil => rfl
  | cons c rest =>
    rw [hname] at hhead hplain
    have hupper : c.toUpper = c :=
      Char.toUpper_eq_of_not_isLower (Char.not_isLower_of_isUpper hhead)
    have hrest : '_' ∉ rest := fun h => hplain (List.mem_cons_of_mem _ h)
    rw [constantChars, camelChars, hupper, camelRest_constantRest hrest]

/-- **Names in camel case are told apart by their mnemonics.** -/
theorem constantCase_inj {a b : String} (ha : IsCamelCase a) (hb : IsCamelCase b) :
    constantCase a = constantCase b ↔ a = b := by
  constructor
  · intro h
    have hchars : constantChars a.toList = constantChars b.toList := String.ofList_inj.1 h
    apply String.toList_inj.1
    rw [← camelChars_constantChars ha, hchars, camelChars_constantChars hb]
  · exact congrArg constantCase

-- Both sides of the condition are needed: an underscore, and a first letter in lower case.
example : constantCase "AB" = constantCase "A_b" := by decide
example : constantCase "Ab" = constantCase "ab" := by decide

end ByteBasic.Tag
