import Reckon.Cause
import Reckon.Complex.Elementary
import Reckon.Decimal.Layout
import Reckon.Number
import Reckon.Real.Elementary

/-! # The operations of a mode

Real arithmetic takes real numbers to real numbers and refuses a complex result. Complex arithmetic
takes everything to complex numbers and counts as zero what lies nearer to zero than `epsilon`.
-/
namespace Reckon
set_option autoImplicit false

/-- Why an operation gives no number: a cause to report, or a modulus that no number holds, which is
    not reported but ends the evaluation. -/
inductive Failure
  | cause (c : Cause)
  | modulusOverflow
  deriving DecidableEq, Repr

def defaultEpsilon : Float := 1e-12

structure Arithmetic where
  mode : Mode
  epsilon : Float := defaultEpsilon

namespace Arithmetic

/-- What a numeric function did not give is reported with the calculation it was needed for. -/
def during {α : Type} (what : Calculation) (result : Except Mishap α) : Except Failure α :=
  result.mapError fun m => .cause (.mishap what m)

def coerce (A : Arithmetic) (a : Number) : Except Failure Number :=
  match A.mode, a with
  | .real, .real x => .ok (.real x)
  | .real, .complex _ => .error (.cause .notReal)
  | .complex, a => .ok (.complex a.toComplex)

def magnitude (a : Number) : Except Failure Float :=
  match a.magnitude? with
  | some r => .ok r
  | none => .error .modulusOverflow

def isZero (A : Arithmetic) (a : Number) : Except Failure Bool :=
  match A.mode with
  | .real => .ok a.isZero
  | .complex => do
    if a.isZero then return true
    return (← magnitude a) < A.epsilon

def add (A : Arithmetic) (a b : Number) : Except Failure Number := A.coerce (a + b)

def sub (A : Arithmetic) (a b : Number) : Except Failure Number := A.coerce (a - b)

def mul (A : Arithmetic) (a b : Number) : Except Failure Number := A.coerce (a * b)

/-- In complex arithmetic the number is taken from zero, so that a zero imaginary part keeps its
    plus sign. -/
def negate (A : Arithmetic) (a : Number) : Except Failure Number :=
  match A.mode with
  | .real => A.coerce (-a)
  | .complex => A.coerce (.real 0 - a)

def percent (A : Arithmetic) (a : Number) : Except Failure Number := A.coerce (a.div (.real 100))

def div (A : Arithmetic) (a b : Number) : Except Failure Number := do
  if ← A.isZero b then throw (.cause .divisionByZero)
  A.coerce (a.div b)

def floorDiv (A : Arithmetic) (a b : Number) : Except Failure Number := do
  if ← A.isZero b then throw (.cause .integerDivisionByZero)
  match A.mode, a.div b with
  | .real, .real q => return .real (Binary64.truncate q)
  | .real, .complex _ => throw (.cause .notReal)
  | .complex, _ =>
    if b.re.abs ≤ A.epsilon then throw (.cause .noRealPart)
    if b.re == 0 then throw (.cause (.mishap .integerDivision .zeroDivision))
    return .complex (.ofReal (Binary64.truncate (a.re / b.re)))

def pow (A : Arithmetic) (a b : Number) : Except Failure Number := do
  A.coerce (← during .power (a.pow b))

def hasFactorial (A : Arithmetic) (a : Number) : Bool :=
  match A.mode, a with
  | .real, .real x => !(x < 0)
  | .real, .complex _ => false
  | .complex, a => a.im.abs ≤ A.epsilon && !(a.re < 0)

/-- The gamma function one further on. Under a pending minus sign the operand as written, which is
    `-a`, must have a factorial as well. -/
def factorial (A : Arithmetic) (a : Number) (negated : Bool) : Except Failure Number := do
  if !A.hasFactorial a || (negated && !A.hasFactorial (-a)) then throw (.cause .invalidFactorial)
  A.coerce (.real (← during .factorial (Real.gamma (a.re + 1.0))))

def root (A : Arithmetic) (a n : Number) : Except Failure Number := do
  A.pow a (← A.div (.real 1) n)

def unary (A : Arithmetic) (f : Unary) (a : Number) : Except Failure Number :=
  match A.mode, a with
  | .real, .real x => .real <$> during (.function f) (Real.apply f x)
  | .real, .complex _ => .error (.cause .notReal)
  | .complex, a => .complex <$> during (.function f) (Complex.apply f a.toComplex)

def constant (A : Arithmetic) (c : Constant) : Number :=
  let z : Complex := match c with
    | .pi => .ofReal Binary64.pi
    | .e => .ofReal Binary64.e
    | .i => .i
  match A.mode with
  | .real => .real z.re
  | .complex => .complex z

def quoted (A : Arithmetic) : String :=
  let name := match A.mode with
    | .real => "RealArithmetic"
    | .complex => "ComplexArithmetic"
  name ++ "(epsilon=" ++ Decimal.exact A.epsilon ++ ")"

end Arithmetic
end Reckon
