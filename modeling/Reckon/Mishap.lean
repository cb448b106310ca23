/-! # Ways a numeric function has no value -/
namespace Reckon
set_option autoImplicit false

inductive Mishap
  | zeroDivision
  | outOfRange
  | outOfDomain
  deriving DecidableEq, Repr

end Reckon
