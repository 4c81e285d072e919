import ByteBasic.Report
import ByteBasic.Text.Blank

/-!
# Tokens of a line

A line is read as words, string literals and symbols. Blanks separate tokens and are otherwise
ignored. Of two symbols with the same start the longer one is read, so `<=` is one symbol.

* `Symbol`: the nineteen symbols, each with its text.
* `Token`: a word, the raw text of a string literal, or a symbol.
* `tokenize`: the tokens of a text, or the first place that no token starts at.
* `SyntaxError`: every way in which a line fails to be a statement.
-/

namespace ByteBasic.Source

/-- The symbols of the language. -/
inductive Symbol
  | equalEqual
  | notEqual
  | lessEqual
  | greaterEqual
  | plusEqual
  | andEqual
  | orEqual
  | xorEqual
  | less
  | greater
  | equal
  | plus
  | and
  | or
  | xor
  | openParen
  | closeParen
  | comma
  | colon
  deriving DecidableEq

namespace Symbol

def text : Symbol → String
  | .equalEqual => "=="
  | .notEqual => "!="
  | .lessEqual => "<="
  | .greaterEqual => ">="
  | .plusEqual => "+="
  | .andEqual => "&="
  | .orEqual => "|="
  | .xorEqual => "^="
  | .less => "<"
  | .greater => ">"
  | .equal => "="
  | .plus => "+"
  | .and => "&"
  | .or => "|"
  | .xor => "^"
  | .openParen => "("
  | .closeParen => ")"
  | .comma => ","
  | .colon => ":"

/-- The longest symbol at the start of a text, and what follows it. -/
def read? : List Char → Option (Symbol × List Char)
  | '=' :: '=' :: rest => some (.equalEqual, rest)
  | '!' :: '=' :: rest => some (.notEqual, rest)
  | '<' :: '=' :: rest => some (.lessEqual, rest)
  | '>' :: '=' :: rest => some (.greaterEqual, rest)
  | '+' :: '=' :: rest => some (.plusEqual, rest)
  | '&' :: '=' :: rest => some (.andEqual, rest)
  | '|' :: '=' :: rest => some (.orEqual, rest)
  | '^' :: '=' :: rest => some (.xorEqual, rest)
  | '<' :: rest => some (.less, rest)
  | '>' :: rest => some (.greater, rest)
  | '=' :: rest => some (.equal, rest)
  | '+' :: rest => some (.plus, rest)
  | '&' :: rest => some (.and, rest)
  | '|' :: rest => some (.or, rest)
  | '^' :: rest => some (.xor, rest)
  | '(' :: rest => some (.openParen, rest)
  | ')' :: rest => some (.closeParen, rest)
  | ',' :: rest => some (.comma, rest)
  | ':' :: rest => some (.colon, rest)
  | _ => none

/-- The symbol with exactly this text. -/
def ofText? (text : String) : Option Symbol :=
  match read? text.toList with
  | some (symbol, []) => some symbol
  | _ => none

theorem ofText?_text (symbol : Symbol) : ofText? symbol.text = some symbol := by
  cases symbol <;> rfl

theorem length_lt_of_read? {text rest : List Char} {symbol : Symbol}
    (h : read? text = some (symbol, rest)) : rest.length < text.length := by
  unfold read? at h
  split at h <;> simp only [Option.some.injEq, Prod.mk.injEq, reduceCtorEq] at h <;>
    obtain ⟨-, rfl⟩ := h <;> simp only [List.length_cons] <;> omega

end Symbol

inductive Token
  /-- A run of letters, digits and underscores. -/
  | word (text : String)
  /-- The raw text between double quotes, its escapes untouched. -/
  | quoted (raw : List Char)
  | symbol (symbol : Symbol)
  deriving DecidableEq

/-- The ways in which a line fails to be a statement. -/
inductive SyntaxError
  /-- A string literal is not closed; the text starts at its quote. -/
  | unterminatedString (text : String)
  | unexpectedCharacter (character : Char)
  | unknownEscape (character : Char)
  /-- A backslash ends the literal. -/
  | missingEscape
  /-- A character's number is above 255. -/
  | wideCharacter (character : Char)
  /-- A symbol stands where a value is needed. -/
  | symbolAsValue (symbol : Symbol)
  | assignmentInCondition
  | unknownComparison (symbol : Symbol)
  | malformedCondition
  | missingGoto
  | unknownControl
  | malformedParameters
  | unknownOperator (symbol : Symbol)
  /-- A compound assignment with a second operand. -/
  | compoundOperands
  | malformedAssignment
  | exitNotNumber
  | exitTooLarge (code : String)
  | malformedExit
  | malformedGoto
  | malformedLabel
  | malformedDeclaration
  | malformedFunction
  | unknownOperation
  deriving DecidableEq

namespace SyntaxError

def kind : SyntaxError → FaultKind
  | .unknownEscape _ => .value
  | .missingEscape => .value
  | .wideCharacter _ => .value
  | .exitNotNumber => .value
  | .exitTooLarge _ => .value
  | .assignmentInCondition => .compile
  | _ => .parse

def message : SyntaxError → String
  | .unterminatedString text => "unterminated string literal: " ++ text
  | .unexpectedCharacter c => "unexpected character '" ++ String.singleton c ++ "'"
  | .unknownEscape c => "unknown escape sequence: \\" ++ String.singleton c
  | .missingEscape => "escape sequence is missing its character"
  | .wideCharacter c => "'" ++ String.singleton c ++ "' does not fit in a byte"
  | .symbolAsValue symbol => "expected a value but found '" ++ symbol.text ++ "'"
  | .assignmentInCondition => "can not assign in comparison"
  | .unknownComparison symbol => "unknown comparison \"" ++ symbol.text ++ "\""
  | .malformedCondition => "could not parse condition"
  | .missingGoto => "if statement missing goto"
  | .unknownControl => "could not parse if statement, unknown control"
  | .malformedParameters => "could not parse parameters"
  | .unknownOperator symbol => "unknown operator \"" ++ symbol.text ++ "\""
  | .compoundOperands => "compound assignment takes a single value"
  | .malformedAssignment => "could not parse assignment"
  | .exitNotNumber => "exit code must be a number"
  | .exitTooLarge code => "exit code " ++ code ++ " does not fit in a byte"
  | .malformedExit => "could not parse exit"
  | .malformedGoto => "could not parse goto"
  | .malformedLabel => "could not parse jump point"
  | .malformedDeclaration => "could not parse variable definition"
  | .malformedFunction => "could not parse function definition"
  | .unknownOperation => "unknown operation"

instance : Cause SyntaxError where
  kind := kind
  message := message

end SyntaxError

/-- Whether `c` can be part of a word: an ASCII letter or digit, or an underscore. -/
def isWordChar (c : Char) : Bool :=
  c.isAlphanum || c == '_'

/-- The raw text up to the closing quote, and what follows that quote. A quote behind a backslash
does not close. -/
def readQuoted : List Char → Option (List Char × List Char)
  | [] => none
  | '"' :: rest => some ([], rest)
  | '\\' :: c :: rest => (readQuoted rest).map fun (raw, after) => ('\\' :: c :: raw, after)
  | c :: rest => (readQuoted rest).map fun (raw, after) => (c :: raw, after)

/-- The closing quote at least is read. -/
theorem length_lt_of_readQuoted {text raw rest : List Char}
    (h : readQuoted text = some (raw, rest)) : rest.length < text.length := by
  fun_induction readQuoted text generalizing raw rest with
  | case1 => simp at h
  | case2 r =>
    simp only [Option.some.injEq, Prod.mk.injEq] at h
    simp [← h.2]
  | case3 c r ih =>
    obtain ⟨⟨raw', rest'⟩, h', hp⟩ := Option.map_eq_some_iff.1 h
    simp only [Prod.mk.injEq] at hp
    have := ih h'
    simp only [List.length_cons, ← hp.2]
    omega
  | case4 c r _ _ ih =>
    obtain ⟨⟨raw', rest'⟩, h', hp⟩ := Option.map_eq_some_iff.1 h
    simp only [Prod.mk.injEq] at hp
    have := ih h'
    simp only [List.length_cons, ← hp.2]
    omega

def tokenize (text : List Char) : Except SyntaxError (List Token) :=
  match text with
  | [] => .ok []
  | c :: rest =>
    if Text.isBlank c then tokenize rest
    else if isWordChar c then
      have : (rest.dropWhile isWordChar).length ≤ rest.length :=
        (List.dropWhile_suffix isWordChar).length_le
      (tokenize (rest.dropWhile isWordChar)).map
        (.word (String.ofList (c :: rest.takeWhile isWordChar)) :: ·)
    else if c = '"' then
      match h : readQuoted rest with
      | none => .error (.unterminatedString (String.ofList (c :: rest)))
      | some (raw, after) =>
        have := length_lt_of_readQuoted h
        (tokenize after).map (.quoted raw :: ·)
    else
      match h : Symbol.read? (c :: rest) with
      | none => .error (.unexpectedCharacter c)
      | some (symbol, after) =>
        have := Symbol.length_lt_of_read? h
        (tokenize after).map (.symbol symbol :: ·)
termination_by text.length
decreasing_by
  all_goals
    simp only [List.length_cons] at *
    omega

end ByteBasic.Source
