import Reckon.Arithmetic
import Reckon.Expression.Code

/-! # Running code

The first instruction that fails ends the run.
-/
namespace Reckon.Expression
set_option autoImplicit false

abbrev Stack := List Number

def Operator.apply (A : Arithmetic) : Operator → Number → Number → Except Failure Number
  | .add => A.add
  | .sub => A.sub
  | .mul => A.mul
  | .div => A.div
  | .floorDiv => A.floorDiv
  | .pow => A.pow

/-- An instruction takes its operands off the stack and puts its value there. Without operands it
    does nothing; read code never comes to that. -/
def Action.apply (A : Arithmetic) : Action → Stack → Except Failure Stack
  | .literal d, stack => (· :: stack) <$> A.coerce (.real d.toFloat)
  | .constant name, stack =>
    match Constant.ofName? A.mode name with
    | some c => .ok (A.constant c :: stack)
    | none => .error (.cause (.unknownIdentifier name))
  | .binary op, b :: a :: stack => (· :: stack) <$> op.apply A a b
  | .negate, a :: stack => (· :: stack) <$> A.negate a
  | .factorial negated, a :: stack => (· :: stack) <$> A.factorial a negated
  | .percent, a :: stack => (· :: stack) <$> A.percent a
  | .call (.unary f), a :: stack => (· :: stack) <$> A.unary f a
  | .call .root, n :: a :: stack => (· :: stack) <$> A.root a n
  | _, stack => .ok stack

/-- A failure, the offset at which it is reported, and how far the text had been read by then. -/
structure Stop where
  failure : Failure
  position : Nat
  reached : Nat
  deriving DecidableEq, Repr

def run (A : Arithmetic) : List Instruction → Stack → Except Stop Stack
  | [], stack => .ok stack
  | i :: code, stack =>
    match i.action.apply A stack with
    | .ok stack => run A code stack
    | .error failure => .error ⟨failure, i.position, i.reached⟩

end Reckon.Expression
