import Reckon.Report
import Reckon.Text.Case

/-! # Line by line

A session prompts, reads a line and prints its result, until a line says to quit or no line is left.
No line changes what another one gives.
-/
namespace Reckon.Session
set_option autoImplicit false

def prompt : String := "> "

def terminalWidth : Nat := 80

def quitWords : List String := ["q", "quit", "exit"]

def clearWords : List String := ["c", "clear"]

def shown (text : String) : String := Report.print (Page.wrap terminalWidth text.toList)

inductive Ending
  | farewell
  | interruption (i : Interruption)
  deriving DecidableEq, Repr

structure Turn where
  output : String := ""
  note : Option String := none
  ending : Option Ending := none

def turn [Interpreter] (settings : Settings) (line : List Char) : Turn :=
  let text := Text.strip Text.isBlank line
  let word := String.ofList (Text.lower text)
  if text.isEmpty || clearWords.contains word then {}
  else if quitWords.contains word then { ending := some .farewell }
  else match evaluate settings (String.ofList text) with
    | .ok o => { output := shown (o.display settings.epsilon), note := o.note? }
    | .error i => { ending := some (.interruption i) }

/-- What was printed, what was noted of failures, and how the session ended. -/
structure Transcript where
  output : String
  notes : List String
  ending : Option Ending

def run [Interpreter] (settings : Settings) : List (List Char) → Transcript
  | [] => ⟨prompt, [], none⟩
  | line :: lines =>
    let t := turn settings line
    match t.ending with
    | some ending => ⟨prompt ++ t.output, t.note.toList, some ending⟩
    | none =>
      let rest := run settings lines
      ⟨prompt ++ t.output ++ rest.output, t.note.toList ++ rest.notes, rest.ending⟩

/-- The lines of an input; a line ends with a carriage return, a line feed or both, and the last one
    may have no end. -/
def lines : List Char → List (List Char)
  | [] => []
  | '\r' :: '\n' :: text => [] :: lines text
  | c :: text =>
    if c = '\n' ∨ c = '\r' then [] :: lines text
    else match lines text with
      | line :: more => (c :: line) :: more
      | [] => [[c]]

end Reckon.Session
