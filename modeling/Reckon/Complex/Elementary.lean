import Reckon.Complex.Circular
import Reckon.Complex.Inverse
import Reckon.Unary

/-! # The functions of one argument on complex numbers -/
namespace Reckon.Complex
set_option autoImplicit false

def apply : Unary → Complex → Except Mishap Complex
  | .log, z | .ln, z => log z
  | .cos, z => cos z
  | .sin, z => sin z
  | .tan, z => tan z
  | .arccos, z => .ok (arccos z)
  | .arcsin, z => .ok (arcsin z)
  | .arctan, z => arctan z
  | .sqrt, z => .ok (sqrt z)

end Reckon.Complex
