import Reckon.Complex.Logarithm
import Reckon.Complex.Root

/-! # Inverse circular functions

Arc cosine stands by itself; arc sine and arc tangent are the inverse hyperbolic functions after a
quarter turn.
-/
namespace Reckon.Complex
set_option autoImplicit false
open Binary64 (infinity nan copySign infinite hypot leastNormal ln2 pi log1p)

def logTwice (z : Complex) : Float := (hypot (z.re / 2.0) (z.im / 2.0)).log + 2.0 * ln2

def isLarge (z : Complex) : Bool := large < z.re.abs || large < z.im.abs

def arccosLimit (z : Complex) : Complex :=
  let re :=
    if z.re == 0 then pi / 2.0
    else Binary64.angle z.im.abs z.re
  let im :=
    if z.hasInfinity then (if z.im.isNaN then infinity else copySign infinity (-z.im)) else nan
  ⟨re, im⟩

def arccos (z : Complex) : Complex :=
  if !z.isFinite then arccosLimit z
  else if z.isLarge then
    let size := logTwice z
    ⟨Binary64.angle z.im.abs z.re,
      if z.re < 0 then -copySign size z.im else copySign size (-z.im)⟩
  else
    let s := sqrt ⟨1.0 - z.re, -z.im⟩
    let t := sqrt ⟨1.0 + z.re, z.im⟩
    ⟨2.0 * Binary64.angle s.re t.re, (t.re * s.im - t.im * s.re).asinh⟩

def arsinhLimit (z : Complex) : Complex :=
  let re :=
    if z.hasInfinity then (if z.re.isNaN then infinity else copySign infinity z.re) else nan
  let im := if z.im == 0 then z.im else Binary64.angle z.im z.re.abs
  ⟨re, im⟩

def arsinh (z : Complex) : Complex :=
  if !z.isFinite then arsinhLimit z
  else if z.isLarge then
    let size := logTwice z
    ⟨if 0 ≤ z.im then copySign size z.re else -copySign size (-z.re),
      Binary64.angle z.im z.re.abs⟩
  else
    let s := sqrt ⟨1.0 + z.im, -z.re⟩
    let t := sqrt ⟨1.0 - z.im, z.re⟩
    ⟨(s.re * t.im - t.re * s.im).asinh, Binary64.angle z.im (s.re * t.re - s.im * t.im)⟩

def arcsin (z : Complex) : Complex := (arsinh z.turnLeft).turnRight

def artanhLimit (z : Complex) : Complex :=
  let re :=
    if z.hasInfinity then (if z.re.isNaN then 0 else copySign 0 z.re)
    else if z.re == 0 then z.re
    else nan
  let im :=
    if z.im.isNaN then nan
    else if z.hasInfinity then copySign (pi / 2.0) z.im
    else nan
  ⟨re, im⟩

/-- The inverse hyperbolic tangent where the real part has no minus sign. -/
def artanhRight (z : Complex) : Except Mishap Complex :=
  let y := z.im.abs
  let wide := large.sqrt
  let narrow := leastNormal.sqrt
  if wide < z.re || wide < y then
    let h := hypot (z.re / 2.0) (z.im / 2.0)
    .ok ⟨z.re / 4.0 / h / h, -copySign (pi / 2.0) (-z.im)⟩
  else if z.re == 1 && y < narrow then
    if y == 0 then .error .outOfDomain
    else .ok ⟨-(y.sqrt / (hypot y 2.0).sqrt).log, copySign (Binary64.angle 2.0 (-y) / 2.0) z.im⟩
  else
    .ok ⟨log1p (4.0 * z.re / ((1.0 - z.re) * (1.0 - z.re) + y * y)) / 4.0,
      -Binary64.angle (-2.0 * z.im) ((1.0 - z.re) * (1.0 + z.re) - y * y) / 2.0⟩

def artanh (z : Complex) : Except Mishap Complex :=
  if !z.isFinite then .ok (artanhLimit z)
  else if Binary64.negative z.re then do
    return -(← artanhRight (-z))
  else artanhRight z

def arctan (z : Complex) : Except Mishap Complex := do
  return (← artanh z.turnLeft).turnRight

end Reckon.Complex
