/-! # Nonnegative fractions

The exact values behind rounding: a numerator over a positive denominator, never reduced.
-/
namespace Reckon
set_option autoImplicit false

structure Ratio where
  num : Nat
  den : Nat
  den_pos : 0 < den

namespace Ratio

def ofNat (n : Nat) : Ratio := ⟨n, 1, Nat.one_pos⟩

def scale (r : Ratio) (base : Nat) (hBase : 0 < base) : Int → Ratio
  | .ofNat n => ⟨r.num * Nat.pow base n, r.den, r.den_pos⟩
  | .negSucc n => ⟨r.num, r.den * Nat.pow base (n + 1), Nat.mul_pos r.den_pos (Nat.pow_pos hBase)⟩

def scaleBinary (r : Ratio) (power : Int) : Ratio := r.scale 2 (Nat.succ_pos 1) power

def scaleDecimal (r : Ratio) (power : Int) : Ratio := r.scale 10 (Nat.succ_pos 9) power

def le (a b : Ratio) : Bool := a.num * b.den ≤ b.num * a.den

def lt (a b : Ratio) : Bool := a.num * b.den < b.num * a.den

def floor (r : Ratio) : Nat := r.num / r.den

/-- The nearest whole number; halfway goes to the even neighbour. -/
def roundEven (r : Ratio) : Nat :=
  let below := r.num / r.den
  let twice := 2 * (r.num % r.den)
  if twice < r.den then below
  else if r.den < twice then below + 1
  else below + below % 2

/-- The `e` with `2 ^ e ≤ r < 2 ^ (e + 1)`, for a fraction above zero. -/
def binade (r : Ratio) : Int :=
  let e : Int := (r.num.log2 : Int) - (r.den.log2 : Int)
  if (ofNat 1).scaleBinary e |>.le r then e else e - 1

def digitCount (n : Nat) : Nat := (Nat.toDigits 10 n).length

/-- The `e` with `10 ^ (e - 1) ≤ r < 10 ^ e`, for a fraction above zero. -/
def decade (r : Ratio) : Int :=
  let e : Int := (digitCount r.num : Int) - (digitCount r.den : Int)
  if r.lt ((ofNat 1).scaleDecimal e) then e else e + 1

end Ratio
end Reckon
