import Reckon.Text.Quoted

/-! # Faults as they are reported

A fault has a kind, a message and the offset in the text where it was noticed.
-/
namespace Reckon
set_option autoImplicit false

inductive FaultKind
  | divisionByZero
  | integerDivisionByZero
  | invalidFactorial
  | unknownFunction
  | arityMismatch
  | unknownIdentifier
  | unmatchedDelimiter
  | unexpectedCharacter
  | trailingInput
  | tooDeep
  | domainError
  | overflow
  deriving DecidableEq, Repr

namespace FaultKind

def all : List FaultKind :=
  [divisionByZero, integerDivisionByZero, invalidFactorial, unknownFunction, arityMismatch,
   unknownIdentifier, unmatchedDelimiter, unexpectedCharacter, trailingInput, tooDeep, domainError,
   overflow]

def name : FaultKind → String
  | divisionByZero => "DivisionByZero"
  | integerDivisionByZero => "IntegerDivisionByZero"
  | invalidFactorial => "InvalidFactorial"
  | unknownFunction => "UnknownFunction"
  | arityMismatch => "ArityMismatch"
  | unknownIdentifier => "UnknownIdentifier"
  | unmatchedDelimiter => "UnmatchedDelimiter"
  | unexpectedCharacter => "UnexpectedCharacter"
  | trailingInput => "TrailingInput"
  | tooDeep => "TooDeep"
  | domainError => "DomainError"
  | overflow => "Overflow"

def ofName? (name : String) : Option FaultKind := all.find? (·.name == name)

def refusal (name : String) : String := Text.quotedText name ++ " is not a valid ErrorKind"

theorem ofName?_name (kind : FaultKind) : ofName? kind.name = some kind := by
  cases kind <;> decide

end FaultKind

structure Fault where
  kind : FaultKind
  message : String
  position : Int
  deriving DecidableEq, Repr

namespace Fault

def describe (fault : Fault) : String := fault.kind.name ++ ": " ++ fault.message

def quoted (fault : Fault) : String :=
  "EvalError(" ++ Text.quotedText fault.kind.name ++ ", " ++ Text.quotedText fault.message ++
    ", position=" ++ toString fault.position ++ ")"

end Fault
end Reckon
