import Reckon.Text.Blank

/-! # Taking texts apart at separators -/
namespace Reckon.Text
set_option autoImplicit false

/-- The stretches between the separators, of which there is one more than separators. -/
def splitOn (separator : Char → Bool) : List Char → List (List Char)
  | [] => [[]]
  | c :: text =>
    if separator c then [] :: splitOn separator text
    else match splitOn separator text with
      | line :: lines => (c :: line) :: lines
      | [] => [[c]]

def fields (text : List Char) : List (List Char) :=
  (splitOn isBlank text).filter fun field => !field.isEmpty

end Reckon.Text
