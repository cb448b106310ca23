import Reckon.Binary64
import Reckon.Mishap

/-! # The gamma function right of zero

Whole arguments up to 23 give the factorial before them exactly; elsewhere a quotient of polynomials
approximates it, times a power and an exponential.
-/
namespace Reckon.Real
set_option autoImplicit false
open Binary64 (infinite isWhole whole)

namespace Approximation

def g : Float := 6.024680040776729583740234375

def gMinusHalf : Float := 5.524680040776729583740234375

def numerator : List Float :=
  [23531376880.410759688572007674451636754734846804940,
   42919803642.649098768957899047001988850926355848959,
   35711959237.355668049440185451547166705960488635843,
   17921034426.037209699919755754458931112671403265390,
   6039542586.3520280050642916443072979210699388420708,
   1439720407.3117216736632230727949123939715485786372,
   248874557.86205415651146038641322942321632125127801,
   31426415.585400194380614231628318205362874684987640,
   2876370.6289353724412254090516208496135991145378768,
   186056.26539522349504029498971604569928220784236328,
   8071.6720023658162106380029022722506138218516325024,
   210.82427775157934587250973392071336271166969580291,
   2.5066282746310002701649081771338373386264310793408]

def denominator : List Float :=
  [0, 39916800, 120543840, 150917976, 105258076, 45995730, 13339535, 2637558, 357423, 32670,
   1925, 66, 1]

/-- A polynomial's value. From five upwards it is taken in powers of the reciprocal, which leaves
    the quotient of two such values as it is. -/
def polynomial (x : Float) (coefficients : List Float) : Float :=
  if x < 5 then coefficients.foldr (fun c sum => sum * x + c) 0
  else coefficients.foldl (fun sum c => sum / x + c) 0

def sum (x : Float) : Float := polynomial x numerator / polynomial x denominator

/-- The approximation, with the rounding error of `x + g - 1/2` put back. -/
def gamma (x : Float) : Float :=
  let y := x + gMinusHalf
  let lost := if gMinusHalf < x then (y - x) - gMinusHalf else (y - gMinusHalf) - x
  let correction := lost * g / y
  let r := sum x / y.exp
  let r := r + correction * r
  if x < 140 then r * y.pow (x - 0.5)
  else
    let half := y.pow (x / 2.0 - 0.25)
    r * half * half

end Approximation

def factorial : Nat → Nat
  | 0 => 1
  | n + 1 => (n + 1) * factorial n

/-- There is no value at zero or left of it. -/
def gamma (x : Float) : Except Mishap Float :=
  if x ≤ 0 then .error .outOfDomain
  else if !x.isFinite then .ok x
  else if isWhole x && x ≤ 23 then .ok (Binary64.ofNat (factorial (whole x - 1)))
  else if 200 < x then .error .outOfRange
  else
    let r := if x < 1e-20 then 1.0 / x else Approximation.gamma x
    if infinite r then .error .outOfRange else .ok r

end Reckon.Real
