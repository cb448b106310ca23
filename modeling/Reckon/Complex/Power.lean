import Reckon.Complex.Basic
import Reckon.Mishap

/-! # Powers of complex numbers -/
namespace Reckon.Complex
set_option autoImplicit false

/-- `acc · z ^ n` by repeated squaring, for `n` below `2 ^ bits`. -/
def squareAndMultiply : Nat → Complex → Complex → Nat → Complex
  | 0, acc, _, _ => acc
  | bits + 1, acc, z, n =>
    if n = 0 then acc
    else squareAndMultiply bits (if n % 2 = 1 then acc * z else acc) (z * z) (n / 2)

def powNat (z : Complex) (n : Nat) : Complex := squareAndMultiply (n.log2 + 1) (ofReal 1) z n

/-- The power to a whole number, through the reciprocal where that is not positive. -/
def powWhole (z : Complex) (n : Nat) (inverted : Bool) : Except Mishap Complex :=
  if inverted then
    if (z.powNat n).isZero then .error .zeroDivision else .ok ((ofReal 1).div (z.powNat n))
  else .ok (z.powNat n)

def powPolar (z w : Complex) : Except Mishap Complex :=
  if w.isZero then .ok (ofReal 1)
  else if z.isZero then
    if w.im != 0 || w.re < 0 then .error .zeroDivision else .ok (ofReal 0)
  else
    let r := Binary64.hypot z.re z.im
    let length := r.pow w.re
    let phase := z.angle * w.re
    let (length, phase) :=
      if w.im != 0 then (length / (z.angle * w.im).exp, phase + w.im * r.log) else (length, phase)
    if Binary64.infinite phase then .error .zeroDivision
    else .ok ⟨length * phase.cos, length * phase.sin⟩

/-- Whole exponents up to a hundred multiply; all others go through the polar form. A power with an
    infinite part is out of range. -/
def pow (z w : Complex) : Except Mishap Complex := do
  let r ←
    if w.im == 0 && Binary64.isWhole w.re && w.re.abs ≤ 100 then
      z.powWhole (Binary64.whole w.re) (w.re ≤ 0)
    else z.powPolar w
  if r.hasInfinity then .error .outOfRange else .ok r

end Reckon.Complex
