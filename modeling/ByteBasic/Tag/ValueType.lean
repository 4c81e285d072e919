import ByteBasic.Tag.Lexeme

/-!
# Types of tag values

Which phrases are types. A type is

* a word that refers to one, or `_`;
* any number of types in parentheses, with commas between them and perhaps after the last;
* a function: `fn` and the types of its parameters in parentheses, after `unsafe`, `extern` or both
  in this order; the first parameter may be `mut self`;
* `dyn` or `impl` and a trait: a word that refers to it, with the types of its parameters in
  parentheses if it has some, and perhaps in parentheses as a whole. After `impl` the trait may be
  marked `const`.

Parentheses may follow the name of a trait but not that of a type.
-/

namespace ByteBasic.Tag

/-- Whether words say that the parameters of a function follow. -/
def announcesFunction (words : List String) : Bool :=
  words == ["fn"] || words == ["unsafe", "fn"] || words == ["extern", "fn"] ||
    words == ["unsafe", "extern", "fn"]

/-- Whether a phrase is the receiver `mut self` of a function. -/
def isReceiver : Phrase → Bool
  | [.word first, .word second] => first == "mut" && second == "self"
  | _ => false

/-- How a trait may be written. -/
structure TraitStyle where
  /-- Whether it may be marked `const`. -/
  mayBeConst : Bool
  /-- Whether it may stand in parentheses. -/
  mayBeGroup : Bool
  deriving DecidableEq

/-- How a trait may be written after a keyword that asks for one. -/
def TraitStyle.after? (keyword : String) : Option TraitStyle :=
  if keyword = "dyn" then some ⟨false, true⟩
  else if keyword = "impl" then some ⟨true, true⟩
  else none

/-- How a trait may be written inside its parentheses. -/
def TraitStyle.inside (style : TraitStyle) : TraitStyle :=
  { style with mayBeGroup := false }

/-- Whether a word marks the trait after it. -/
def TraitStyle.allowsMark (style : TraitStyle) (word : String) : Bool :=
  style.mayBeConst && word == "const"

mutual

/-- Whether a phrase is a type. -/
def isType : List Lexeme → Bool
  | [.word word] => word == "_" || isTypeWord word
  | [group] => group.holdsTypes
  | .word first :: rest =>
    match TraitStyle.after? first with
    | some style => isTrait style rest
    | none => isFunction [first] rest
  | _ => false

/-- Whether lexemes are a trait that is written in a given style. -/
def isTrait (style : TraitStyle) : List Lexeme → Bool
  | [.word name] => isTraitWord name
  | [group] => style.mayBeGroup && group.holdsTrait style
  | [.word mark, .word name] => style.allowsMark mark && isTraitWord name
  | [.word name, group] => isTraitWord name && group.holdsTypes
  | [.word mark, .word name, group] =>
    style.allowsMark mark && isTraitWord name && group.holdsTypes
  | _ => false

/-- Whether lexemes are the rest of a function that starts with the given words. -/
def isFunction (words : List String) : List Lexeme → Bool
  | [group] => announcesFunction words && group.holdsParameters
  | .word word :: rest => isFunction (words ++ [word]) rest
  | _ => false

/-- Whether phrases are types, but for an empty one at the end. -/
def areTypes : List (List Lexeme) → Bool
  | [] => true
  | [[]] => true
  | phrase :: rest => isType phrase && areTypes rest

/-- Whether phrases are the parameters of a function. -/
def areParameters : List (List Lexeme) → Bool
  | [] => true
  | [[]] => true
  | phrase :: rest => (isReceiver phrase || isType phrase) && areTypes rest

/-- Whether a lexeme is types in parentheses. -/
def Lexeme.holdsTypes : Lexeme → Bool
  | .group .round phrases => areTypes phrases
  | _ => false

/-- Whether a lexeme is the parameters of a function in parentheses. -/
def Lexeme.holdsParameters : Lexeme → Bool
  | .group .round phrases => areParameters phrases
  | _ => false

/-- Whether a lexeme is a trait in parentheses. -/
def Lexeme.holdsTrait (style : TraitStyle) : Lexeme → Bool
  | .group .round [phrase] => isTrait style.inside phrase
  | _ => false

end

end ByteBasic.Tag
