import ByteBasic.Tag.Name

/-!
# Tokens of attributes

The arguments of an attribute and the number of a variant are texts of one token language: names,
numbers, quoted text, brackets and symbols, with blanks and remarks between them.

* A remark goes from two slashes to the end of the line, or from `/*` to the `*/` that matches it.
  One that starts with `///` or `/**` documents what follows it, and one that starts with `//!` or
  `/*!` what it stands in. Documentation is another way to write an attribute, so it leaves the
  tokens of one.
* Text stands in double quotes, where a backslash takes the meaning from what follows it. After `r`,
  `br` or `cr` and any number of number signs it is raw: a backslash means nothing, and the text
  ends at a quote with as many number signs. A character stands between apostrophes.
* `r#` in front of a name makes it another name, which is never reserved.

`tokens?` reads one character at a time. `step` says what a character adds and where the next one
stands; it looks ahead only where the meaning of a character depends on what follows.
-/

namespace ByteBasic.Tag

/-- The three sorts of brackets. -/
inductive Bracket
  | round
  | square
  | curly
  deriving DecidableEq

inductive Token
  | word (text : String)
  /-- A run of letters, digits and underscores that starts with a digit. -/
  | number (run : List Char)
  /-- A text or a character in quotes. -/
  | quoted
  | opening (bracket : Bracket)
  | closing (bracket : Bracket)
  | symbol (c : Char)
  deriving DecidableEq

/-- The characters that are tokens on their own. -/
def symbolChars : List Char :=
  "~!@#$%^&*-=+|;:,<.>/?".toList

/-- The token of a character that is one on its own. -/
def Token.ofChar? (c : Char) : Option Token :=
  if c = '(' then some (.opening .round)
  else if c = ')' then some (.closing .round)
  else if c = '[' then some (.opening .square)
  else if c = ']' then some (.closing .square)
  else if c = '\x7b' then some (.opening .curly)
  else if c = '\x7d' then some (.closing .curly)
  else if c ∈ symbolChars then some (.symbol c)
  else none

/-- The words that `r#` cannot make into names. -/
def unnameable : List String :=
  ["r#_", "r#crate", "r#self", "r#Self", "r#super"]

/-- The token of a run of name characters, with or without `r#` in front. -/
def Token.ofRun? (run : List Char) : Option Token :=
  let text := String.ofList run
  if run.head?.any Char.isDigit then some (.number run)
  else if text ∈ unnameable then none
  else some (.word text)

/-! ## Remarks -/

/-- What a remark is for. -/
inductive RemarkKind
  | plain
  /-- Documents what follows. -/
  | outer
  /-- Documents what it stands in. -/
  | inner
  deriving DecidableEq

/-- The tokens of an attribute of documentation, without its number sign. -/
def documentation : List Token :=
  [.opening .square, .word "doc", .closing .square]

/-- The tokens that a remark leaves. -/
def RemarkKind.tokens : RemarkKind → List Token
  | .plain => []
  | .outer => .symbol '#' :: documentation
  | .inner => .symbol '#' :: .symbol '!' :: documentation

/-- The kind of a remark that goes on with these characters after two slashes. Four slashes or more
start a plain one. -/
def RemarkKind.ofLine : List Char → RemarkKind
  | '!' :: _ => .inner
  | '/' :: '/' :: _ => .plain
  | '/' :: _ => .outer
  | _ => .plain

/-- The kind of a remark that goes on with these characters after `/*`. An empty remark, and one
that starts with a row of asterisks, is plain. -/
def RemarkKind.ofBlock : List Char → RemarkKind
  | '!' :: _ => .inner
  | '*' :: '*' :: _ => .plain
  | '*' :: '/' :: _ => .plain
  | '*' :: _ => .outer
  | _ => .plain

/-! ## Reading -/

/-- Where a character stands. -/
inductive Place
  /-- Between two tokens. -/
  | between
  /-- After the characters of a run, the last one first, and before one that belongs to it. -/
  | run (run : List Char)
  /-- After the mark of raw text and some number signs. -/
  | rawMark (mark : List Char) (signs : Nat)
  /-- In raw text that ends at a quote with so many number signs. -/
  | raw (signs : Nat)
  /-- In such text, after a quote with only `found` of the number signs. -/
  | rawQuote (signs found : Nat)
  /-- In double quotes. -/
  | text
  /-- Between apostrophes, after an escape. -/
  | character
  /-- In a remark that ends with the line. -/
  | line
  /-- In a block, with `depth` more blocks open around it. -/
  | block (depth : Nat)
  /-- At a character that has been dealt with, and before another place. -/
  | pass (next : Place)
  deriving DecidableEq

/-- What a character adds, and where the one after it stands. -/
abbrev Step := List Token × Place

/-- Whether a text may end at a place. -/
def Place.mayEnd : Place → Bool
  | .between => true
  | .line => true
  | _ => false

/-- Whether a run is a mark of raw text, when what follows starts with `next`. -/
def marksRaw (run : List Char) (next : Option Char) : Bool :=
  String.ofList run ∈ ["r", "br", "cr"] && (next == some '"' || next == some '#')

/-- After the characters of a run, the last one first. -/
def stepRun (run rest : List Char) : Option Step :=
  if rest.head?.any continuesName then some ([], .run run)
  else if marksRaw run.reverse rest.head? then some ([], .rawMark run.reverse 0)
  else (Token.ofRun? run.reverse).map fun token => ([token], .between)

/-- After an apostrophe: a character and its second apostrophe, or a name with one in front. -/
def stepApostrophe : List Char → Option Step
  | '\\' :: _ => some ([], .pass (.pass .character))
  | _ :: '\x27' :: _ => some ([.quoted], .pass (.pass .between))
  | c :: _ => if startsName c then some ([.symbol '\x27'], .between) else none
  | [] => none

/-- After a quote with so many number signs in raw text. -/
def stepRawQuote (signs found : Nat) : Step :=
  if found = signs then ([.quoted], .between) else ([], .rawQuote signs found)

/-- At a character between two tokens. -/
def stepBetween (c : Char) (rest : List Char) : Option Step :=
  if isSpacing c then some ([], .between)
  else if startsName c || c.isDigit then stepRun [c] rest
  else if c = '"' then some ([], .text)
  else if c = '\x27' then stepApostrophe rest
  else match c, rest with
    | '/', '/' :: more => some ((RemarkKind.ofLine more).tokens, .line)
    | '/', '*' :: more => some ((RemarkKind.ofBlock more).tokens, .pass (.block 0))
    | _, _ => (Token.ofChar? c).map fun token => ([token], .between)

/-- At a character in a block of remarks. -/
def stepBlock (depth : Nat) (c : Char) (rest : List Char) : Step :=
  match c, rest.head?, depth with
  | '/', some '*', _ => ([], .pass (.block (depth + 1)))
  | '*', some '/', 0 => ([], .pass .between)
  | '*', some '/', depth + 1 => ([], .pass (.block depth))
  | _, _, _ => ([], .block depth)

/-- At a character after the mark of raw text and some number signs. -/
def stepRawMark (mark : List Char) (signs : Nat) (c : Char) (rest : List Char) : Option Step :=
  if c = '#' then some ([], .rawMark mark (signs + 1))
  else if c = '"' then some ([], .raw signs)
  else if mark = ['r'] ∧ signs = 1 ∧ startsName c then stepRun [c, '#', 'r'] rest
  else none

/-- What the character `c` at a place adds and where the next one stands, if the text can go on so
and is followed by `rest`. -/
def step (place : Place) (c : Char) (rest : List Char) : Option Step :=
  match place with
  | .between => stepBetween c rest
  | .run run => stepRun (c :: run) rest
  | .rawMark mark signs => stepRawMark mark signs c rest
  | .raw signs => some (if c = '"' then stepRawQuote signs 0 else ([], .raw signs))
  | .rawQuote signs found =>
    some (if c = '#' then stepRawQuote signs (found + 1)
      else if c = '"' then stepRawQuote signs 0
      else ([], .raw signs))
  | .text =>
    some (if c = '\\' then ([], .pass .text)
      else if c = '"' then ([.quoted], .between)
      else ([], .text))
  | .character => some (if c = '\x27' then ([.quoted], .between) else ([], .character))
  | .line => some ([], if c = '\n' then .between else .line)
  | .block depth => some (stepBlock depth c rest)
  | .pass next => some ([], next)

/-- The tokens of a text that starts at a place. -/
def tokensFrom? (place : Place) : List Char → Option (List Token)
  | [] => if place.mayEnd then some [] else none
  | c :: rest => do
    let (tokens, next) ← step place c rest
    let more ← tokensFrom? next rest
    return tokens ++ more

/-- The text without the byte order mark that it may start with. -/
def withoutOrderMark : List Char → List Char
  | '\uFEFF' :: rest => rest
  | text => text

/-- The tokens of a text, if it can be read. -/
def tokens? (text : List Char) : Option (List Token) :=
  tokensFrom? .between (withoutOrderMark text)

end ByteBasic.Tag
