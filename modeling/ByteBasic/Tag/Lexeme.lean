import ByteBasic.Tag.Token

/-!
# Lexemes

Tokens are read as phrases with commas between them, where a phrase is a list of lexemes and a
lexeme may again be a list of phrases in brackets: `public, repr((u8, u16))` has the phrases
`public` and `repr((u8, u16))`. Nothing at all is one empty phrase, and so is what follows a last
comma.

`phrases?` has no answer for a text that cannot be read or whose brackets do not match.
-/

namespace ByteBasic.Tag

/-- A token other than a bracket, or phrases in brackets. -/
inductive Lexeme
  | word (text : String)
  | number (run : List Char)
  | quoted
  | symbol (c : Char)
  | group (bracket : Bracket) (phrases : List (List Lexeme))

/-- What stands between two commas. -/
abbrev Phrase := List Lexeme

/-- A list of phrases that is being read. -/
structure PhraseList where
  /-- The phrases before the last comma, the last one first. -/
  finished : List Phrase := []
  /-- The lexemes after the last comma, the last one first. -/
  current : Phrase := []

namespace PhraseList

def push (list : PhraseList) (lexeme : Lexeme) : PhraseList :=
  { list with current := lexeme :: list.current }

def next (list : PhraseList) : PhraseList :=
  { finished := list.current.reverse :: list.finished }

def phrases (list : PhraseList) : List Phrase :=
  (list.current.reverse :: list.finished).reverse

end PhraseList

/-- Reads tokens into a list of phrases, with the lists around it that are still open, each with the
bracket it was left at, the innermost first. -/
def nestTokens (list : PhraseList) (around : List (Bracket × PhraseList)) :
    List Token → Option (List Phrase)
  | [] => if around.isEmpty then some list.phrases else none
  | .word text :: rest => nestTokens (list.push (.word text)) around rest
  | .number run :: rest => nestTokens (list.push (.number run)) around rest
  | .quoted :: rest => nestTokens (list.push .quoted) around rest
  | .symbol c :: rest =>
    nestTokens (if c = ',' then list.next else list.push (.symbol c)) around rest
  | .opening bracket :: rest => nestTokens {} ((bracket, list) :: around) rest
  | .closing bracket :: rest =>
    match around with
    | [] => none
    | (opened, outer) :: around =>
      if opened = bracket then nestTokens (outer.push (.group bracket list.phrases)) around rest
      else none

/-- The phrases of a text, if it can be read and its brackets match. -/
def phrases? (text : List Char) : Option (List Phrase) :=
  (tokens? text).bind (nestTokens {} [])

/-! ## Text -/

/-- The characters of a bracket. -/
def Bracket.enclose (bracket : Bracket) (text : String) : String :=
  match bracket with
  | .round => "(" ++ text ++ ")"
  | .square => "[" ++ text ++ "]"
  | .curly => "\x7b" ++ text ++ "\x7d"

mutual

/-- The text of a lexeme, without blanks. What was quoted is not kept. -/
def Lexeme.text : Lexeme → String
  | .word text => text
  | .number run => String.ofList run
  | .quoted => ""
  | .symbol c => String.singleton c
  | .group bracket phrases => bracket.enclose (phrasesText phrases)

/-- The text of a phrase: that of its lexemes, one right after the other. -/
def phraseText : List Lexeme → String
  | [] => ""
  | lexeme :: rest => lexeme.text ++ phraseText rest

/-- The text of phrases, with commas between them. -/
def phrasesText : List (List Lexeme) → String
  | [] => ""
  | [phrase] => phraseText phrase
  | phrase :: rest => phraseText phrase ++ "," ++ phrasesText rest

end

end ByteBasic.Tag
