import Reckon.Evaluation
import Reckon.Json

/-! # Outcomes as JSON records -/
namespace Reckon
set_option autoImplicit false

/-- JSON has no numbers that are not finite; those are written as words. -/
def Json.ofFloat (x : Float) : Json := if x.isFinite then .float x else .text (Decimal.exact x)

def Number.record (a : Number) : Json :=
  .object [("real", .ofFloat a.re), ("imag", .ofFloat a.im)]

def Fault.record (f : Fault) : Json :=
  .object [("kind", .text f.kind.name), ("message", .text f.message),
    ("position", .integer f.position)]

def Outcome.record (o : Outcome) : Json :=
  .object [("expression", .text o.text), ("verdict", .text o.verdict),
    match o.result with
    | .ok a => ("value", a.record)
    | .error f => ("error", f.record)]

end Reckon
