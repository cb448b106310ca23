import Reckon.Binary64

/-! # Decimal numbers

A coefficient and a power of ten. `toFloat` reads one as the nearest binary64 number; `rounded` and
`shortest` write a binary64 number, the one to a count of digits, the other in the fewest digits
that read back.
-/
namespace Reckon
set_option autoImplicit false

structure Decimal where
  coefficient : Nat
  exponent : Int
  deriving DecidableEq, Repr

namespace Decimal

def toRatio (d : Decimal) : Ratio := (Ratio.ofNat d.coefficient).scaleDecimal d.exponent

/-- The position of the point counted from the first digit. -/
def decade (d : Decimal) : Int := Ratio.digitCount d.coefficient + d.exponent

/-- The nearest binary64 number. Far outside the range the power of ten is not formed. -/
def toFloat (d : Decimal) : Float :=
  if d.coefficient = 0 then 0
  else if 400 < d.decade then Binary64.infinity
  else if d.decade < -400 then 0
  else Binary64.ofRatio d.toRatio

def digitsValue (digits : List Nat) : Nat := digits.foldl (fun n d => 10 * n + d) 0

def significant (d : Decimal) : List Char :=
  match ((Nat.toDigits 10 d.coefficient).reverse.dropWhile (· == '0')).reverse with
  | [] => ['0']
  | digits => digits

/-- The nearest decimal with `count` digits, for a number that is finite and not zero; halfway goes
    to the even coefficient. -/
def rounded (count : Nat) (x : Float) : Decimal :=
  let exponent := (Binary64.ratio x).decade - count
  let coefficient := ((Binary64.ratio x).scaleDecimal (-exponent)).roundEven
  if coefficient = Nat.pow 10 count then ⟨Nat.pow 10 (count - 1), exponent + 1⟩ else ⟨coefficient, exponent⟩

def readsAs (d : Decimal) (x : Float) : Bool := d.toFloat.toBits == x.abs.toBits

/-- Of the two decimals around `x` with this exponent, the one that reads back as `x`; of two, the
    nearer. -/
def nearestReading (x : Float) (exponent : Int) : Option Decimal :=
  let scaled := (Binary64.ratio x).scaleDecimal (-exponent)
  let below : Decimal := ⟨scaled.floor, exponent⟩
  let above : Decimal := ⟨scaled.floor + 1, exponent⟩
  let nearest : Decimal := ⟨scaled.roundEven, exponent⟩
  match below.readsAs x, above.readsAs x with
  | true, true => some nearest
  | true, false => some below
  | false, true => some above
  | false, false => none

/-- The decimal with the fewest digits that reads back as the number, which is finite and not zero. -/
def shortest (x : Float) : Decimal :=
  let top := (Binary64.ratio x).decade
  ((List.range 17).findSome? fun k => nearestReading x (top - (k + 1 : Nat))).getD (rounded 17 x)

end Decimal
end Reckon
