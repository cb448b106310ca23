import Reckon.Complex.Logarithm

/-! # Circular functions

Sine, cosine and tangent are the hyperbolic functions after a quarter turn.
-/
namespace Reckon.Complex
set_option autoImplicit false
open Binary64 (infinity nan copySign infinite e)

/-- Beyond this a hyperbolic cosine may not be a finite number. -/
def logLarge : Float := Float.ofBits 0x4086232BDD7ABCD2

def directed (angle : Float) : Complex :=
  ⟨copySign infinity angle.cos, copySign infinity angle.sin⟩

def inRange (z : Complex) : Except Mishap Complex :=
  if z.hasInfinity then .error .outOfRange else .ok z

def coshLimit (z : Complex) : Except Mishap Complex :=
  if infinite z.im && !z.re.isNaN then .error .outOfDomain
  else if infinite z.re then
    if z.im.isNaN then .ok ⟨infinity, nan⟩
    else if z.im == 0 then .ok ⟨infinity, if z.re < 0 then -z.im else z.im⟩
    else
      let d := directed z.im
      .ok ⟨d.re, if z.re < 0 then -d.im else d.im⟩
  else if z.re == 0 || z.im == 0 then .ok ⟨nan, 0⟩
  else .ok ⟨nan, nan⟩

def cosh (z : Complex) : Except Mishap Complex :=
  if !z.isFinite then coshLimit z
  else if logLarge < z.re.abs then
    let nearer := z.re - copySign 1 z.re
    inRange ⟨z.im.cos * nearer.cosh * e, z.im.sin * nearer.sinh * e⟩
  else inRange ⟨z.im.cos * z.re.cosh, z.im.sin * z.re.sinh⟩

def sinhLimit (z : Complex) : Except Mishap Complex :=
  if infinite z.im && !z.re.isNaN then .error .outOfDomain
  else if infinite z.re then
    if z.im.isNaN then .ok ⟨infinity, nan⟩
    else if z.im == 0 then .ok ⟨z.re, z.im⟩
    else
      let d := directed z.im
      .ok ⟨if z.re < 0 then -d.re else d.re, d.im⟩
  else if z.re == 0 then .ok ⟨0, nan⟩
  else if z.im == 0 then .ok ⟨nan, z.im⟩
  else .ok ⟨nan, nan⟩

def sinh (z : Complex) : Except Mishap Complex :=
  if !z.isFinite then sinhLimit z
  else if logLarge < z.re.abs then
    let nearer := z.re - copySign 1 z.re
    inRange ⟨z.im.cos * nearer.sinh * e, z.im.sin * nearer.cosh * e⟩
  else inRange ⟨z.im.cos * z.re.sinh, z.im.sin * z.re.cosh⟩

def tanhLimit (z : Complex) : Except Mishap Complex :=
  if infinite z.im && z.re.isFinite then .error .outOfDomain
  else if infinite z.re then
    if z.im.isFinite && z.im != 0 then
      .ok ⟨copySign 1 z.re, copySign 0 (2.0 * z.im.sin * z.im.cos)⟩
    else if z.im == 0 then .ok ⟨copySign 1 z.re, z.im⟩
    else .ok ⟨copySign 1 z.re, 0⟩
  else if z.im == 0 then .ok ⟨nan, z.im⟩
  else .ok ⟨nan, nan⟩

def tanh (z : Complex) : Except Mishap Complex :=
  if !z.isFinite then tanhLimit z
  else if logLarge < z.re.abs then
    .ok ⟨copySign 1 z.re, 4.0 * z.im.sin * z.im.cos * (-2.0 * z.re.abs).exp⟩
  else
    let tx := z.re.tanh
    let ty := z.im.tan
    let cx := 1.0 / z.re.cosh
    let product := tx * ty
    let divisor := 1.0 + product * product
    .ok ⟨tx * (1.0 + ty * ty) / divisor, ((ty / divisor) * cx) * cx⟩

def cos (z : Complex) : Except Mishap Complex := cosh z.turnLeft

def sin (z : Complex) : Except Mishap Complex := do
  return (← sinh z.turnLeft).turnRight

def tan (z : Complex) : Except Mishap Complex := do
  return (← tanh z.turnLeft).turnRight

end Reckon.Complex
