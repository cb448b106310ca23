import Reckon.Decimal

/-! # How numbers are written

Three layouts: `general` (six digits, for display), `exact` (the fewest digits that read back) and
`scientific` (a fixed count of digits and always an exponent).
-/
namespace Reckon.Decimal
set_option autoImplicit false

def exponentText (power : Int) : List Char :=
  let digits := Nat.toDigits 10 power.natAbs
  (if power < 0 then '-' else '+') :: (if digits.length < 2 then '0' :: digits else digits)

/-- One digit, the others behind a point, and the power of ten of the first. -/
def withExponent (digits : List Char) (power : Int) : List Char :=
  let body := match digits with
    | [] => []
    | [d] => [d]
    | d :: more => d :: '.' :: more
  body ++ 'e' :: exponentText power

/-- Digits around a point that stands `decade` places after the first of them. -/
def positional (digits : List Char) (decade : Int) (wholeEnd : List Char) : List Char :=
  if decade ≤ 0 then
    '0' :: '.' :: (List.replicate (-decade).toNat '0' ++ digits)
  else if digits.length ≤ decade.toNat then
    digits ++ List.replicate (decade.toNat - digits.length) '0' ++ wholeEnd
  else
    digits.take decade.toNat ++ '.' :: digits.drop decade.toNat

/-- Positional while the power of the first digit is at least `-4` and below `limit`. -/
def adaptive (limit : Int) (wholeEnd : List Char) (d : Decimal) : List Char :=
  if -4 ≤ d.decade - 1 ∧ d.decade - 1 < limit then positional d.significant d.decade wholeEnd
  else withExponent d.significant (d.decade - 1)

/-- A sign, and words for what is not finite. `zero` and `magnitude` write the rest. -/
def signed (zero : List Char) (magnitude : Float → List Char) (x : Float) : String :=
  if x.isNaN then "nan"
  else
    let body :=
      if Binary64.infinite x then ['i', 'n', 'f']
      else if x == 0 then zero
      else magnitude x
    String.ofList (if Binary64.negative x then '-' :: body else body)

def general (x : Float) : String :=
  signed ['0'] (fun x => adaptive 6 [] (rounded 6 x)) x

/-- The fewest digits that read back; a whole number keeps a point and a zero. -/
def exact (x : Float) : String :=
  signed ['0', '.', '0'] (fun x => adaptive 16 ['.', '0'] (shortest x)) x

/-- `count` digits, the first before the point, and the power of ten of the first. -/
def scientific (count : Nat) (x : Float) : String :=
  signed (withExponent (List.replicate count '0') 0)
    (fun x =>
      let d := rounded count x
      withExponent (Nat.toDigits 10 d.coefficient) (d.decade - 1)) x

end Reckon.Decimal
