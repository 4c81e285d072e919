import ByteBasic.Source.Comment
import ByteBasic.Source.Literal
import ByteBasic.Source.Statement
import ByteBasic.Text.Decimal

/-!
# Reading a line

`Statement.parse` reads the statement of a line, if it has one. The first token decides: a colon
starts a label, a keyword its own statement, and any other word a call or an assignment. The words
`HALT`, `else`, `end` and `return` are keywords only when they stand alone.
-/

namespace ByteBasic

namespace Source

def operand : Token → Except SyntaxError Operand
  | .word text => .ok (.word text)
  | .quoted raw => (unescape raw).map .text
  | .symbol symbol => .error (.symbolAsValue symbol)

def condition : List Token → Except SyntaxError Condition
  | [left, .symbol symbol, right] =>
    if symbol = .equal then .error .assignmentInCondition
    else match Comparison.ofSymbol? symbol with
      | none => .error (.unknownComparison symbol)
      | some comparison => do
        let left ← operand left
        let right ← operand right
        return ⟨left, comparison, right⟩
  | _ => .error .malformedCondition

/-- The label that the tokens after the colon of an `if` name. -/
def ifTarget : List Token → Except SyntaxError String
  | [] => .error .missingGoto
  | [.word label] => .ok label
  | [.word first, .word label] => if first = "goto" then .ok label else .error .unknownControl
  | _ => .error .unknownControl

/-- The tokens before the first colon, and those after it if there is one. -/
def splitAtColon : List Token → List Token × Option (List Token)
  | [] => ([], none)
  | .symbol .colon :: rest => ([], some rest)
  | token :: rest =>
    let (before, after) := splitAtColon rest
    (token :: before, after)

/-- The statement after the word `if`. A fault behind the colon is reported before one in the
condition. -/
def ifStatement (tokens : List Token) : Except SyntaxError Statement :=
  match splitAtColon tokens with
  | (head, none) => (condition head).map .ifBlock
  | (head, some tail) => do
    let label ← ifTarget tail
    let condition ← condition head
    return .ifGoto condition label

/-- One argument of a call. -/
def argument (token : Token) : Except SyntaxError Operand :=
  if token = .symbol .comma then .error .malformedParameters else operand token

/-- The arguments between the parentheses of a call, of which there is at least one. -/
def someArguments : List Token → Except SyntaxError (List Operand)
  | [] => .error .malformedParameters
  | [token] => (argument token).map ([·])
  | token :: .symbol .comma :: rest => do
    let first ← argument token
    let others ← someArguments rest
    return first :: others
  | _ => .error .malformedParameters

/-- The arguments between the parentheses of a call. -/
def callArguments (tokens : List Token) : Except SyntaxError (List Operand) :=
  if tokens = [] then .ok [] else someArguments tokens

/-- The update that the tokens after `=` stand for. -/
def setUpdate : List Token → Except SyntaxError Update
  | [source] => (operand source).map .set
  | [left, .symbol symbol, right] =>
    match BinaryOp.ofSymbol? symbol with
    | none => .error (.unknownOperator symbol)
    | some op => do
      let left ← operand left
      let right ← operand right
      return .combine left op right
  | _ => .error .malformedAssignment

/-- The update that the tokens after a symbol of compound assignment stand for. -/
def compoundUpdate (op : BinaryOp) : List Token → Except SyntaxError Update
  | [source] => (operand source).map (.compound op)
  | [_, .symbol symbol, _] =>
    match BinaryOp.ofSymbol? symbol with
    | none => .error (.unknownOperator symbol)
    | some _ => .error .compoundOperands
  | _ => .error .malformedAssignment

/-- The update that a symbol and the tokens after it stand for. -/
def update (symbol : Symbol) (tokens : List Token) : Except SyntaxError Update :=
  if symbol = .equal then setUpdate tokens
  else match BinaryOp.ofCompound? symbol with
    | some op => compoundUpdate op tokens
    | none => .error .unknownOperation

def exitCode (word : String) : Except SyntaxError UInt8 :=
  if Decimal.isNumeral word.toList then
    match Decimal.readByte? word.toList with
    | some code => .ok code
    | none => .error (.exitTooLarge word)
  else .error .exitNotNumber

/-- A statement that starts with a word which is no keyword: a call or an assignment. -/
def plainStatement (word : String) : List Token → Except SyntaxError Statement
  | .symbol .openParen :: rest =>
    if rest.getLast? = some (.symbol .closeParen) then
      (callArguments rest.dropLast).map (.call word)
    else .error .unknownOperation
  | .symbol symbol :: rest => (update symbol rest).map (.assign word)
  | _ => .error .unknownOperation

/-- The words that start statements of their own. -/
inductive Keyword
  | halt
  | otherwise
  | close
  | ret
  | exit
  | goto
  | var
  | ifWord
  | whileWord
  | function
  deriving DecidableEq

/-- The keyword that a word is. -/
def Keyword.ofWord? (word : String) : Option Keyword :=
  if word = "HALT" then some .halt
  else if word = "else" then some .otherwise
  else if word = "end" then some .close
  else if word = "return" then some .ret
  else if word = "exit" then some .exit
  else if word = "goto" then some .goto
  else if word = "var" then some .var
  else if word = "if" then some .ifWord
  else if word = "while" then some .whileWord
  else if word = "function" then some .function
  else none

/-- A statement that starts with a word. -/
def wordStatement (word : String) (rest : List Token) : Except SyntaxError Statement :=
  match Keyword.ofWord? word, rest with
  | some .halt, [] => .ok .halt
  | some .otherwise, [] => .ok .otherwise
  | some .close, [] => .ok .close
  | some .ret, [] => .ok .ret
  | some .exit, [.word code] => (exitCode code).map .exit
  | some .exit, _ => .error .malformedExit
  | some .goto, [.word label] => .ok (.goto label)
  | some .goto, _ => .error .malformedGoto
  | some .var, [.word name] => .ok (.declare name none)
  | some .var, [.word name, .symbol .equal, value] =>
    (operand value).map fun value => .declare name (some value)
  | some .var, _ => .error .malformedDeclaration
  | some .ifWord, rest => ifStatement rest
  | some .whileWord, rest => (condition rest).map .loop
  | some .function, [.word name, .symbol .openParen, .symbol .closeParen] => .ok (.function name)
  | some .function, _ => .error .malformedFunction
  | _, rest => plainStatement word rest

/-- The statement that the tokens of a line stand for; no tokens are no statement. -/
def statement? : List Token → Except SyntaxError (Option Statement)
  | [] => .ok none
  | .word word :: rest => (wordStatement word rest).map some
  | [.symbol .colon, .word label] => .ok (some (.label label))
  | .symbol .colon :: _ => .error .malformedLabel
  | _ => .error .unknownOperation

end Source

/-- The statement of a line. A line that is blank, or holds only a comment, has none. -/
def Statement.parse (line : List Char) : Except Source.SyntaxError (Option Statement) := do
  let tokens ← Source.tokenize (Source.stripComment line)
  Source.statement? tokens

end ByteBasic
