/-! # The functions of one argument -/
namespace Reckon
set_option autoImplicit false

inductive Unary
  | log | ln | cos | sin | tan | arccos | arcsin | arctan | sqrt
  deriving DecidableEq, Repr

namespace Unary

def all : List Unary := [log, ln, cos, sin, tan, arccos, arcsin, arctan, sqrt]

def name : Unary → String
  | log => "log" | ln => "ln"
  | cos => "cos" | sin => "sin" | tan => "tan"
  | arccos => "arccos" | arcsin => "arcsin" | arctan => "arctan"
  | sqrt => "sqrt"

def description : Unary → String
  | log | ln => "natural logarithm"
  | cos => "cosine (radians)"
  | sin => "sine (radians)"
  | tan => "tangent (radians)"
  | arccos => "inverse cosine"
  | arcsin => "inverse sine"
  | arctan => "inverse tangent"
  | sqrt => "square root"

end Unary
end Reckon
