import Reckon.Text.CaseTable
import Reckon.Text.Range

/-! # Small and capital letters

Whole texts are mapped, since a letter may become several and the small sigma has another form at
the end of a word.
-/
namespace Reckon.Text
set_option autoImplicit false

def CaseRun.image? (run : CaseRun) (code : Nat) : Option Nat :=
  if run.first ≤ code ∧ code ≤ run.last ∧ (code - run.first) % run.step = 0 then
    some (code + run.shift).toNat
  else none

def mapCase (special : List (Nat × List Nat)) (runs : List CaseRun) (c : Char) : List Char :=
  match special.lookup c.toNat with
  | some codes => codes.map Char.ofNat
  | none => [((runs.findSome? (·.image? c.toNat)).map Char.ofNat).getD c]

def isCased (c : Char) : Bool := within casedRanges c

def isIgnorable (c : Char) : Bool := within ignorableRanges c

/-- Whether the nearest character that counts has a case. -/
def nextIsCased (text : List Char) : Bool := ((text.dropWhile isIgnorable).head?.map isCased).getD false

/-- The small letters of a text, given what stands before it, nearest first. -/
def lowerAfter : List Char → List Char → List Char
  | _, [] => []
  | before, 'Σ' :: text =>
    (if nextIsCased before && !nextIsCased text then 'ς' else 'σ') :: lowerAfter ('Σ' :: before) text
  | before, c :: text => mapCase lowerSpecial lowerRuns c ++ lowerAfter (c :: before) text

def lower (text : List Char) : List Char := lowerAfter [] text

def upper (text : List Char) : List Char := text.flatMap (mapCase upperSpecial upperRuns)

end Reckon.Text
