import ByteBasic.Code.Layout
import ByteBasic.Storage.Basic

/-!
# Why a program is refused

Every cause for which the compiler refuses a program, with its kind and its wording.
-/

namespace ByteBasic

/-- Why a program is refused. -/
inductive CompileError
  /-- The line is not a statement. -/
  | malformed (error : Source.SyntaxError)
  | storage (error : StorageError)
  | misplacedElse (error : ElseError)
  | layout (error : LayoutError)
  | elseWithoutIf
  | endWithoutBlock
  | returnOutsideFunction
  /-- A block that the source does not close. -/
  | unterminated (keyword : String)
  /-- More code than memory. -/
  | programTooLarge (size : Nat)
  /-- The code runs into the slots of variables. -/
  | overlap (size : Nat) (lowest : UInt8)
  /-- A string literal of another length than one stands for a value. -/
  | notOneCharacter
  | invalidHex (word : String)
  | wideNumber (word : String)
  | noSuchRegister (word : String)
  | unknownValue (word : String)
  | assignToLiteral (value : UInt8)
  | literalComparison
  | nestedFunction
  | builtinRedefined (name : String)
  | functionRedefined (name : String)
  | argumentCount (name : String) (expected found : Nat)
  | emptyWrite
  | rotateNeedsVariable
  | rotateAmountRange
  | popNeedsDestination
  | unknownFunction (name : String)
  | unexpectedArguments (name : String)
  deriving DecidableEq

namespace CompileError

def kind : CompileError → FaultKind
  | .malformed error => error.kind
  | .storage error => error.kind
  | .misplacedElse error => Cause.kind error
  | .layout error => error.kind
  | .notOneCharacter => .value
  | .invalidHex _ => .value
  | .wideNumber _ => .value
  | .noSuchRegister _ => .value
  | .unknownValue _ => .value
  | .assignToLiteral _ => .value
  | .literalComparison => .value
  | .argumentCount _ _ _ => .value
  | .emptyWrite => .value
  | .rotateNeedsVariable => .value
  | .rotateAmountRange => .value
  | .popNeedsDestination => .value
  | .unexpectedArguments _ => .value
  | .elseWithoutIf => .compile
  | .endWithoutBlock => .compile
  | .returnOutsideFunction => .compile
  | .unterminated _ => .compile
  | .programTooLarge _ => .compile
  | .overlap _ _ => .compile
  | .nestedFunction => .compile
  | .builtinRedefined _ => .compile
  | .functionRedefined _ => .compile
  | .unknownFunction _ => .compile

def message : CompileError → String
  | .malformed error => error.message
  | .storage error => error.message
  | .misplacedElse error => Cause.message error
  | .layout error => error.message
  | .elseWithoutIf => "else statement without if"
  | .endWithoutBlock => "end statement without block"
  | .returnOutsideFunction => "return statement outside of function"
  | .unterminated keyword => "unterminated " ++ keyword
  | .programTooLarge size =>
    "program of " ++ Decimal.numeral size ++ " bytes does not fit in memory"
  | .overlap size lowest =>
    "code reaches i" ++ Hex.numeral 2 size ++ " and overlaps variable storage at m" ++
      Hex.numeral 2 lowest.toNat
  | .notOneCharacter => "character literal must be a single character"
  | .invalidHex word => "invalid hex value: " ++ word
  | .wideNumber word => word ++ " does not fit in a byte"
  | .noSuchRegister word => "register " ++ word ++ " does not exist"
  | .unknownValue word => "unknown variable or value: " ++ word
  | .assignToLiteral value =>
    "can not assign to literal 0x" ++ Hex.numeralLower 2 value.toNat
  | .literalComparison => "can not compare two literals"
  | .nestedFunction => "can not define a function inside another function"
  | .builtinRedefined name => "can not redefine builtin function " ++ name
  | .functionRedefined name => "function " ++ name ++ " already defined"
  | .argumentCount name expected found =>
    name ++ " takes " ++ Decimal.numeral expected ++ " parameter" ++
      (if expected = 1 then "" else "s") ++ " but was given " ++ Decimal.numeral found
  | .emptyWrite => "write needs at least one character"
  | .rotateNeedsVariable => "rotate needs a variable to rotate"
  | .rotateAmountRange => "rotate amount must be a number from 0 to 15"
  | .popNeedsDestination => "fromStack needs a variable or register"
  | .unknownFunction name => "unknown function " ++ name
  | .unexpectedArguments name => "function " ++ name ++ " takes no parameters"

instance : Cause CompileError where
  kind := kind
  message := message

end CompileError

end ByteBasic
