import Reckon.Mishap
import Reckon.Unary

/-! # The functions of one argument on real numbers -/
namespace Reckon.Real
set_option autoImplicit false

/-- A function is not defined where it turns a number into none. -/
def defined (f : Float → Float) (x : Float) : Except Mishap Float :=
  if (f x).isNaN && !x.isNaN then .error .outOfDomain else .ok (f x)

def log (x : Float) : Except Mishap Float :=
  if x ≤ 0 then .error .outOfDomain else .ok x.log

def apply : Unary → Float → Except Mishap Float
  | .log, x | .ln, x => log x
  | .cos, x => defined Float.cos x
  | .sin, x => defined Float.sin x
  | .tan, x => defined Float.tan x
  | .arccos, x => defined Float.acos x
  | .arcsin, x => defined Float.asin x
  | .arctan, x => .ok x.atan
  | .sqrt, x => defined Float.sqrt x

end Reckon.Real
