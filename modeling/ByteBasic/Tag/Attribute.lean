import ByteBasic.Tag.ValueType

/-!
# Arguments of the tag attribute

An enumeration asks for its tag tables with arguments of the form `public, repr(T)` or
`private, repr(T)`: whether the constants are public and the type of their values.

A text that cannot be read as phrases is refused before anything in it is looked at. Three faults
have a wording of their own; all others are only refused.
-/

namespace ByteBasic.Tag

/-- Whether the constants of a table can be seen from outside. -/
inductive Visibility
  | isPublic
  | isPrivate
  deriving DecidableEq

def Visibility.word : Visibility → String
  | .isPublic => "public"
  | .isPrivate => "private"

/-- The visibility of a word. -/
def Visibility.ofWord? (word : String) : Option Visibility :=
  if word = "public" then some .isPublic
  else if word = "private" then some .isPrivate
  else none

structure Arguments where
  visibility : Visibility
  /-- The type of the values, without blanks. -/
  repr : String
  deriving DecidableEq

/-- Why arguments are refused. -/
inductive ArgumentError
  | unexpectedVisibility
  | missingComma (visibility : Visibility)
  | missingRepr (visibility : Visibility)
  /-- A fault without a wording of its own. -/
  | malformed
  deriving DecidableEq

/-- The wordings of an argument error. -/
def ArgumentError.messages : ArgumentError → List String
  | .unexpectedVisibility => ["Unexpected visibility: expected `public` or `private`"]
  | .missingComma visibility => ["Missing comma after `" ++ visibility.word ++ "` visibility"]
  | .missingRepr visibility => ["Missing `repr` after `" ++ visibility.word ++ ",`"]
  | .malformed => []

/-- The type of the values that a phrase states. -/
def reprOf : Phrase → Except ArgumentError String
  | [.group .round [phrase]] => if isType phrase then .ok (phraseText phrase) else .error .malformed
  | _ => .error .malformed

/-- The arguments with a given visibility and the phrases after it. -/
def argumentsAfter (visibility : Visibility) : List Phrase → Except ArgumentError Arguments
  | [] => .error (.missingComma visibility)
  | (.word word :: phrase) :: rest =>
    if word ≠ "repr" then .error (.missingRepr visibility)
    else if rest.isEmpty then (reprOf phrase).map (⟨visibility, ·⟩)
    else .error .malformed
  | _ :: _ => .error (.missingRepr visibility)

/-- The arguments that phrases stand for. -/
def Arguments.ofPhrases : List Phrase → Except ArgumentError Arguments
  | (.word word :: phrase) :: rest =>
    match Visibility.ofWord? word with
    | some visibility =>
      if phrase.isEmpty then argumentsAfter visibility rest else .error (.missingComma visibility)
    | none => .error (if word ∈ reservedWords then .malformed else .unexpectedVisibility)
  | _ => .error .malformed

def Arguments.parse (text : String) : Except ArgumentError Arguments :=
  match phrases? text.toList with
  | some phrases => Arguments.ofPhrases phrases
  | none => .error .malformed

end ByteBasic.Tag
