import Reckon.Display
import Reckon.Page.Markup
import Reckon.Page.Table

/-! # Reports: tables of results, functions and constants -/
namespace Reckon.Report
set_option autoImplicit false
open Page (Table)

def cell (markup : List Char) : List Char :=
  match Page.plainText markup with
  | .ok text => text
  | .error _ => markup

def styled (style : String) (text : String) : List Char :=
  let tag (name : List Char) := '[' :: (name ++ [']'])
  tag style.toList ++ Page.escape text.toList ++ tag ('/' :: style.toList)

def resultRow (epsilon : Float) (o : Outcome) : List (List Char) :=
  cell (Page.escape o.text.toList) ::
    match o.result with
    | .ok a => [cell (Page.escape (a.display epsilon).toList), cell (styled "green" "ok")]
    | .error f => [cell (styled "red" f.message), cell (styled "red" f.kind.name)]

def results (epsilon : Float) (outcomes : List Outcome) : Table where
  title := "Results"
  columns := [⟨"Expression", .left, 12⟩, ⟨"Result", .right, 12⟩, ⟨"Status", .center, 0⟩]
  rows := outcomes.map (resultRow epsilon)

def functions (mode : Mode) : Table where
  title := "Functions (" ++ mode.name ++ ")"
  columns := [⟨"Name", .left, 8⟩, ⟨"Arity", .right, 0⟩, ⟨"Description", .left, 24⟩]
  rows := (Builtin.all.mergeSort fun f g => f.name ≤ g.name).map fun f =>
    [f.name.toList, (toString f.arity).toList, f.description.toList]

def constants (mode : Mode) : Table where
  title := "Constants (" ++ mode.name ++ ")"
  columns := [⟨"Name", .left, 8⟩, ⟨"Value", .right, 0⟩]
  rows := (Constant.all mode).map fun c =>
    [c.name.toList, ((Arithmetic.constant ⟨mode, defaultEpsilon⟩ c).display defaultEpsilon).toList]

def print (lines : List (List Char)) : String :=
  String.ofList (lines.flatMap (· ++ ['\n']))

/-- Tables with an empty line before the first and behind the last. -/
def page (tables : List Table) : String :=
  print ([[]] ++ tables.flatMap Table.lines ++ [[]])

def resultsPage (epsilon : Float) (outcomes : List Outcome) : String :=
  page [results epsilon outcomes]

def registryPage (mode : Mode) : String := page [functions mode, constants mode]

end Reckon.Report
