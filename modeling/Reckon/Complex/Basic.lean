import Reckon.Binary64

/-! # Complex numbers in rectangular form

Sums and products are taken by parts, with no repair of infinities; quotients divide by the part of
the larger magnitude first.
-/
namespace Reckon
set_option autoImplicit false

structure Complex where
  re : Float
  im : Float
  deriving DecidableEq

namespace Complex

def ofReal (x : Float) : Complex := ⟨x, 0⟩

def i : Complex := ⟨0, 1⟩

instance : Inhabited Complex := ⟨ofReal 0⟩
instance : Add Complex := ⟨fun a b => ⟨a.re + b.re, a.im + b.im⟩⟩
instance : Sub Complex := ⟨fun a b => ⟨a.re - b.re, a.im - b.im⟩⟩
instance : Mul Complex := ⟨fun a b => ⟨a.re * b.re - a.im * b.im, a.re * b.im + a.im * b.re⟩⟩
instance : Neg Complex := ⟨fun a => ⟨-a.re, -a.im⟩⟩

def isZero (z : Complex) : Bool := z.re == 0 && z.im == 0

def isFinite (z : Complex) : Bool := z.re.isFinite && z.im.isFinite

def hasInfinity (z : Complex) : Bool := Binary64.infinite z.re || Binary64.infinite z.im

def turnLeft (z : Complex) : Complex := ⟨-z.im, z.re⟩

def turnRight (z : Complex) : Complex := ⟨z.im, -z.re⟩

def div (a b : Complex) : Complex :=
  if b.im.abs ≤ b.re.abs then
    let ratio := b.im / b.re
    let divisor := b.re + b.im * ratio
    ⟨(a.re + a.im * ratio) / divisor, (a.im - a.re * ratio) / divisor⟩
  else if b.re.abs ≤ b.im.abs then
    let ratio := b.re / b.im
    let divisor := b.re * ratio + b.im
    ⟨(a.re * ratio + a.im) / divisor, (a.im * ratio - a.re) / divisor⟩
  else ⟨Binary64.nan, Binary64.nan⟩

/-- The distance from zero; there is none if it lies beyond the largest number though both parts
    are finite. It is taken as documented: a distance that is no number is given as such, and no
    error that an earlier operation left behind has an effect. -/
def modulus? (z : Complex) : Option Float :=
  let r := Binary64.hypot z.re z.im
  if z.isFinite && Binary64.infinite r then none else some r

def angle (z : Complex) : Float := Binary64.angle z.im z.re

end Complex
end Reckon
