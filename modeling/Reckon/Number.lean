import Reckon.Complex.Power
import Reckon.Real.Gamma

/-! # Numbers, real or complex

An operation on two real numbers is the real one; with a complex operand the other becomes complex
first.
-/
namespace Reckon
set_option autoImplicit false

inductive Number
  | real (x : Float)
  | complex (z : Complex)
  deriving DecidableEq

namespace Number

def toComplex : Number → Complex
  | real x => .ofReal x
  | complex z => z

def re (a : Number) : Float := a.toComplex.re

def im (a : Number) : Float := a.toComplex.im

def lift (f : Float → Float → Float) (g : Complex → Complex → Complex) : Number → Number → Number
  | real x, real y => real (f x y)
  | a, b => complex (g a.toComplex b.toComplex)

def isZero : Number → Bool
  | real x => x == 0
  | complex z => z.isZero

instance : Inhabited Number := ⟨real 0⟩
instance : Add Number := ⟨lift (· + ·) (· + ·)⟩
instance : Sub Number := ⟨lift (· - ·) (· - ·)⟩
instance : Mul Number := ⟨lift (· * ·) (· * ·)⟩
instance : Neg Number := ⟨fun | real x => real (-x) | complex z => complex (-z)⟩

def div : Number → Number → Number := lift (· / ·) Complex.div

/-- The distance from zero, unless it lies beyond the largest number though the parts do not. -/
def magnitude? : Number → Option Float
  | real x => some x.abs
  | complex z => z.modulus?

/-- A real power. A negative base with a fractional exponent has a complex one. -/
def powReal (x y : Float) : Except Mishap Number :=
  if y == 0 then .ok (real 1)
  else if x.isNaN then .ok (real x)
  else if y.isNaN then .ok (real (if x == 1 then 1 else y))
  else if Binary64.infinite y then
    .ok (real (if x.abs == 1 then 1 else if (0 < y) == (1 < x.abs) then y.abs else 0))
  else if Binary64.infinite x then
    let size : Float := if 0 < y then x.abs else 0
    .ok (real (if Binary64.isOdd y then Binary64.copySign size x else size))
  else if x == 0 then
    if y < 0 then .error .zeroDivision
    else .ok (real (if Binary64.isOdd y then x else 0))
  else if x < 0 && !Binary64.isWhole y then
    complex <$> (Complex.ofReal x).pow (.ofReal y)
  else
    let size := if x.abs == 1 then 1 else x.abs.pow y
    if Binary64.infinite size then .error .outOfRange
    else .ok (real (if x < 0 && Binary64.isOdd y then -size else size))

def pow : Number → Number → Except Mishap Number
  | real x, real y => powReal x y
  | a, b => complex <$> a.toComplex.pow b.toComplex

end Number
end Reckon
