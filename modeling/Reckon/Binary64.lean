import Reckon.Ratio

/-! # Binary64 numbers as exact values

A finite number is `significand · 2 ^ unit` with a sign. The way back, `ofRatio`, rounds to the
nearest number and sends halfway to the even significand.
-/
namespace Reckon.Binary64
set_option autoImplicit false

def infinity : Float := Float.ofBits 0x7FF0000000000000
def nan : Float := Float.ofBits 0x7FF8000000000000
def largest : Float := Float.ofBits 0x7FEFFFFFFFFFFFFF
def leastNormal : Float := Float.ofBits 0x0010000000000000
def pi : Float := Float.ofBits 0x400921FB54442D18
def e : Float := Float.ofBits 0x4005BF0A8B145769
def ln2 : Float := Float.ofBits 0x3FE62E42FEFA39EF

/-- Whether the sign bit is set; so it is for `-0.0`. -/
def negative (x : Float) : Bool := 0x8000000000000000 ≤ x.toBits.toNat

def infinite (x : Float) : Bool := x.abs == infinity

def hiddenBit : Nat := 0x10000000000000

def exponentField (x : Float) : Nat := x.toBits.toNat / hiddenBit % 0x800

def significand (x : Float) : Nat :=
  x.toBits.toNat % hiddenBit + if exponentField x = 0 then 0 else hiddenBit

def unit (x : Float) : Int := (max (exponentField x) 1 : Nat) - 1075

def ratio (x : Float) : Ratio := (Ratio.ofNat (significand x)).scaleBinary (unit x)

/-- The number nearest to a fraction; infinity if that lies beyond the largest. -/
def ofRatio (r : Ratio) : Float :=
  if r.num = 0 then 0
  else
    let unit := max (r.binade - 52) (-1074)
    let steps := (r.scaleBinary (-unit)).roundEven
    let bits := (unit + 1074).toNat * hiddenBit + steps
    if bits < 0x7FF0000000000000 then Float.ofBits (UInt64.ofNat bits) else infinity

def ofNat (n : Nat) : Float := ofRatio (Ratio.ofNat n)

def copySign (magnitude sign : Float) : Float :=
  if negative sign then -magnitude.abs else magnitude.abs

def whole (x : Float) : Nat := (ratio x).floor

def isWhole (x : Float) : Bool :=
  x.isFinite && (ratio x).num % (ratio x).den == 0

def isOdd (x : Float) : Bool := isWhole x && whole x % 2 == 1

/-- Rounds toward zero; what vanishes becomes `0.0`, whatever its sign was. -/
def truncate (x : Float) : Float :=
  if !x.isFinite then x
  else if whole x = 0 then 0
  else copySign (ofNat (whole x)) x

/-- The correctly rounded root of the sum of two squares; an infinite side wins over a NaN. -/
def hypot (x y : Float) : Float :=
  if infinite x || infinite y then infinity
  else if x.isNaN || y.isNaN then nan
  else
    let base := min (unit x) (unit y)
    let side (z : Float) : Nat := significand z <<< (unit z - base).toNat
    let square := (side x * side x + side y * side y) <<< 128
    let root := Nat.sqrt square
    let sticky := if root * root = square then 0 else 1
    ofRatio ((Ratio.ofNat (2 * root + sticky)).scaleBinary (base - 65))

/-- An approximation of the natural logarithm of `1 + x`, without the loss that forming the sum would
    bring. A library function for it may differ in the last place. -/
def log1p (x : Float) : Float :=
  let u := 1.0 + x
  if u == 1.0 || infinite u then x else u.log * (x / (u - 1.0))

/-- The angle of the point `(x, y)`. On an axis it is read off the signs. -/
def angle (y x : Float) : Float :=
  if x.isNaN || y.isNaN then nan
  else if y == 0 then (if negative x then copySign pi y else y)
  else if x == 0 || (infinite y && !infinite x) then copySign (pi / 2) y
  else if infinite x && !infinite y then (if negative x then copySign pi y else copySign 0 y)
  else Float.atan2 y x

end Reckon.Binary64
