import Reckon.Decimal.Layout
import Reckon.Evaluation

/-! # Results as they are shown -/
namespace Reckon
set_option autoImplicit false

/-- Six digits; an imaginary part within `epsilon` of zero is left out. -/
def Number.display (epsilon : Float) : Number → String
  | real x => Decimal.general x
  | complex z =>
    if z.im.abs ≤ epsilon then Decimal.general z.re
    else Decimal.general z.re ++ (if z.im < 0 then "-" else "+") ++ Decimal.general z.im.abs ++ "i"

def Outcome.display (epsilon : Float) (o : Outcome) : String :=
  match o.result with
  | .ok value => value.display epsilon
  | .error fault => "Error: " ++ fault.describe

end Reckon
