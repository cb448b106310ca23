/-! # Sets of characters given by ranges of code points -/
namespace Reckon.Text
set_option autoImplicit false

def within (ranges : List (Nat × Nat)) (c : Char) : Bool :=
  ranges.any fun r => r.1 ≤ c.toNat && c.toNat ≤ r.2

end Reckon.Text
