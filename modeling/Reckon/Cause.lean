import Reckon.Builtin
import Reckon.Fault
import Reckon.Mishap

/-! # Causes of faults

Every fault of reading or calculating has one of these causes; its kind and its message are read off
the cause.
-/
namespace Reckon
set_option autoImplicit false

inductive Bracket
  | round | square | curly
  deriving DecidableEq, Repr

namespace Bracket

def opener : Bracket → Char
  | round => '('
  | square => '['
  | curly => '{'

def closer : Bracket → Char
  | round => ')'
  | square => ']'
  | curly => '}'

def ofOpener? : Char → Option Bracket
  | '(' => some round
  | '[' => some square
  | '{' => some curly
  | _ => none

theorem ofOpener?_eq_some_iff {c : Char} {b : Bracket} : ofOpener? c = some b ↔ c = b.opener := by
  constructor
  · intro h
    unfold ofOpener? at h
    split at h <;> first | (cases h; rfl) | cases h
  · rintro rfl
    cases b <;> rfl

end Bracket

/-- What was being calculated when a numeric function had no value. -/
inductive Calculation
  | division
  | integerDivision
  | power
  | factorial
  | function (f : Unary)
  deriving DecidableEq, Repr

def Calculation.name : Calculation → String
  | division => "division"
  | integerDivision => "integer division"
  | power => "power"
  | factorial => "factorial"
  | function f => f.name

inductive Cause
  | divisionByZero
  | integerDivisionByZero
  | noRealPart
  | invalidFactorial
  | mishap (during : Calculation) (what : Mishap)
  | notReal
  | unknownFunction (name : String)
  | arityMismatch (f : Builtin) (given : Nat)
  | unknownIdentifier (name : String)
  | openBracket (b : Bracket)
  | openArguments (f : Builtin)
  | endOfInput
  | unexpected (c : Char)
  | lonePoint
  | trailing (c : Char)
  | tooDeep (limit : Int)
  | beyondReach
  deriving DecidableEq, Repr

namespace Cause

def kind : Cause → FaultKind
  | divisionByZero => .divisionByZero
  | integerDivisionByZero | noRealPart => .integerDivisionByZero
  | invalidFactorial => .invalidFactorial
  | mishap _ .zeroDivision => .divisionByZero
  | mishap _ .outOfRange => .overflow
  | mishap _ .outOfDomain | notReal => .domainError
  | unknownFunction _ => .unknownFunction
  | arityMismatch _ _ => .arityMismatch
  | unknownIdentifier _ => .unknownIdentifier
  | openBracket _ | openArguments _ => .unmatchedDelimiter
  | endOfInput | unexpected _ | lonePoint => .unexpectedCharacter
  | trailing _ => .trailingInput
  | tooDeep _ | beyondReach => .tooDeep

def quotedChar (c : Char) : String := String.ofList (Text.quoted [c])

/-- What is said of a cause. A limit is taken to be written out however many digits it has. -/
def message : Cause → String
  | divisionByZero => "division by zero"
  | integerDivisionByZero => "integer division by zero"
  | noRealPart => "integer division by a divisor with no real part"
  | invalidFactorial => "factorial of a negative or non-real number"
  | mishap during .zeroDivision => during.name ++ ": division by zero"
  | mishap during .outOfRange => during.name ++ ": result out of range"
  | mishap during .outOfDomain => during.name ++ ": argument outside the function's domain"
  | notReal => "result is not a real number"
  | unknownFunction name => "unknown function '" ++ name ++ "'"
  | arityMismatch f given =>
    f.name ++ "() takes " ++ toString f.arity ++ " argument(s), got " ++ toString given
  | unknownIdentifier name => "unknown identifier '" ++ name ++ "'"
  | openBracket b =>
    "expected '" ++ b.closer.toString ++ "' to match '" ++ b.opener.toString ++ "'"
  | openArguments f => "expected ')' to close the arguments of " ++ f.name ++ "()"
  | endOfInput => "unexpected end of input"
  | unexpected c => "unexpected character " ++ quotedChar c
  | lonePoint => "'.' is not a number"
  | trailing c => "unexpected " ++ quotedChar c ++ " after a complete expression"
  | tooDeep limit => "expression nested deeper than " ++ toString limit ++ " levels"
  | beyondReach => "expression nested too deeply"

def fault (cause : Cause) (position : Nat) : Fault := ⟨cause.kind, cause.message, position⟩

end Cause
end Reckon
