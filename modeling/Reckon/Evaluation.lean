import Reckon.Expression.Machine
import Reckon.Expression.Reader
import Reckon.Settings

/-! # Evaluation

A text is read into code and the code is run. The first failing instruction wins over a complaint
of the reader, since it stands before it in the text. So both together do what a single pass over the
text would do, as `Expression.value_eq_singlePass` says.
-/
namespace Reckon
set_option autoImplicit false

structure Outcome where
  text : String
  result : Except Fault Number

inductive Interruption
  /-- The modulus of a finite number lies beyond the largest number. -/
  | modulusOverflow
  deriving DecidableEq, Repr

def Interruption.message : Interruption → String
  | modulusOverflow => "absolute value too large"

namespace Outcome

def ok (o : Outcome) : Bool := o.result.isOk

def verdict (o : Outcome) : String := if o.ok then "ok" else "error"

def note? (o : Outcome) : Option String :=
  match o.result with
  | .ok _ => none
  | .error fault =>
    let evaluation := "evaluate(" ++ Text.quotedText o.text ++ ") "
    if fault.message = Cause.beyondReach.message then
      some (evaluation ++ "hit the interpreter recursion limit")
    else some (evaluation ++ "failed at " ++ toString fault.position ++ ": " ++ fault.describe)

end Outcome

namespace Expression

def Complaint.stop (c : Complaint) : Stop := ⟨.cause c.cause, c.position, c.reached⟩

/-- The value of a text in an arithmetic, with at most `limit` levels of nesting. -/
def value [Interpreter] (A : Arithmetic) (limit : Int) (text : List Char) : Except Stop Number :=
  let reading := read limit text
  match run A reading.code [], reading.outcome with
  | .error stop, _ => .error stop
  | .ok _, .error complaint => .error complaint.stop
  | .ok stack, .ok () => .ok (stack.headD default)

end Expression

def evaluate [Interpreter] (settings : Settings) (text : String) : Except Interruption Outcome :=
  match Expression.value settings.arithmetic settings.maxDepth text.toList with
  | .ok value => .ok ⟨text, .ok value⟩
  | .error ⟨.cause cause, position, _⟩ => .ok ⟨text, .error (cause.fault position)⟩
  | .error ⟨.modulusOverflow, _, _⟩ => .error .modulusOverflow

end Reckon
