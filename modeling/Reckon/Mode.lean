import Reckon.Text.Quoted

/-! # Real or complex -/
namespace Reckon
set_option autoImplicit false

inductive Mode
  | real | complex
  deriving DecidableEq, Repr, Inhabited

namespace Mode

def name : Mode → String
  | real => "real"
  | complex => "complex"

def ofName? : String → Option Mode
  | "real" => some real
  | "complex" => some complex
  | _ => none

def refusal (name : String) : String := Text.quotedText name ++ " is not a valid NumberMode"

theorem ofName?_name (mode : Mode) : ofName? mode.name = some mode := by
  cases mode <;> rfl

end Mode
end Reckon
