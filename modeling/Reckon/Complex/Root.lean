import Reckon.Complex.Basic

/-! # The square root

The root lies in the right half plane, on the side of the real axis that the sign of the imaginary
part names; a zero's sign counts.
-/
namespace Reckon.Complex
set_option autoImplicit false
open Binary64 (infinity nan copySign hypot leastNormal infinite)

/-- Half the modulus plus half the real magnitude, under the root; scaled so that nothing overflows
    and no small part is lost. -/
def rootPart (x y : Float) : Float :=
  if x < leastNormal && y < leastNormal then
    let up := 9007199254740992.0
    (x * up + hypot (x * up) (y * up)).sqrt / 134217728.0
  else
    let eighth := x / 8.0
    2.0 * (eighth + hypot eighth (y / 8.0)).sqrt

def sqrtFinite (z : Complex) : Complex :=
  if z.isZero then ⟨0, z.im⟩
  else
    let larger := rootPart z.re.abs z.im.abs
    let smaller := z.im.abs / (2.0 * larger)
    if 0 ≤ z.re then ⟨larger, copySign smaller z.im⟩ else ⟨smaller, copySign larger z.im⟩

/-- The limits of the root where a part is infinite. -/
def sqrt (z : Complex) : Complex :=
  if infinite z.im then ⟨infinity, z.im⟩
  else if infinite z.re then
    if z.re < 0 then
      if z.im.isNaN then ⟨nan, infinity⟩ else ⟨0, copySign infinity z.im⟩
    else
      if z.im.isNaN then ⟨infinity, nan⟩ else ⟨infinity, copySign 0 z.im⟩
  else if z.re.isNaN || z.im.isNaN then ⟨nan, nan⟩
  else sqrtFinite z

end Reckon.Complex
