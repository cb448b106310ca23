import Reckon.Complex.Basic
import Reckon.Mishap

/-! # The natural logarithm

The real part is the logarithm of the modulus, the imaginary part the angle. Zero has none.
-/
namespace Reckon.Complex
set_option autoImplicit false
open Binary64 (infinity nan hypot leastNormal largest ln2)

/-- Beyond this a modulus may not be a finite number. -/
def large : Float := largest / 4.0

/-- The logarithm of the modulus of a finite number that is not zero. Where the modulus is near one
    the squares are compared with one by their difference. -/
def logModulus (z : Complex) : Float :=
  let x := z.re.abs
  let y := z.im.abs
  if large < x || large < y then (hypot (x / 2.0) (y / 2.0)).log + ln2
  else if x < leastNormal && y < leastNormal then
    let up := 9007199254740992.0
    (hypot (x * up) (y * up)).log - 53.0 * ln2
  else
    let r := hypot x y
    if 0.71 ≤ r && r ≤ 1.73 then
      let major := if y < x then x else y
      let minor := if y < x then y else x
      Binary64.log1p ((major - 1.0) * (major + 1.0) + minor * minor) / 2.0
    else r.log

def log (z : Complex) : Except Mishap Complex :=
  if z.isZero then .error .outOfDomain
  else if z.isFinite then .ok ⟨logModulus z, z.angle⟩
  else .ok ⟨if z.hasInfinity then infinity else nan, z.angle⟩

end Reckon.Complex
