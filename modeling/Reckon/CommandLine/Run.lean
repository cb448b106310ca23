import Reckon.CommandLine.Request
import Reckon.Record
import Reckon.Session

/-! # Running a request

The answer to a request is all that can be seen of it: the exit code, the two outputs, the log, and
what cut it short.
-/
namespace Reckon.CommandLine
set_option autoImplicit false

inductive Abort
  | interruption (i : Interruption)
  | markupFlaw (f : Page.MarkupFlaw)

def Abort.message : Abort → String
  | interruption i => i.message
  | markupFlaw f => f.message

/-- Warnings come while the settings are made, before anything is evaluated; notes on failed
    evaluations come later, and only where the log takes them. -/
structure Answer where
  exitCode : Nat
  output : String := ""
  messages : String := ""
  warnings : List String := []
  notes : List String := []
  abort : Option Abort := none

def invalidMode (name : String) : Answer :=
  match Page.plainText ("[red]Invalid mode: " ++ name ++ "[/red]. Choose: real, complex").toList with
  | .ok text => { exitCode := 1, messages := Session.shown (String.ofList text) }
  | .error f => { exitCode := 1, abort := some (.markupFlaw f) }

def chosenMode (name : Option String) : Except String (Option Mode) :=
  match name with
  | none | some "" => .ok none
  | some name =>
    match Mode.ofName? (String.ofList (Text.lower name.toList)) with
    | some mode => .ok (some mode)
    | none => .error name

/-- The settings of the environment under the preferences, and the warnings on the way. A mode that
    there is not is refused before the environment is looked at. -/
def settings (env : Environment) (p : Preferences) : Except Answer (Settings × List String) :=
  match chosenMode p.mode with
  | .error name => .error (invalidMode name)
  | .ok mode =>
    let (s, warnings) := Settings.ofEnvironment env
    .ok (s.override mode p.maxDepth (if p.verbose then some "DEBUG" else none), warnings)

def keepsNotes (s : Settings) : Bool := s.logLevel == "DEBUG"

def warningText (warnings : List String) : String := String.join (warnings.map (· ++ "\n"))

def withSettings (env : Environment) (p : Preferences) (act : Settings → Answer) : Answer :=
  match settings env p with
  | .error refusal => refusal
  | .ok (s, warnings) =>
    let a := act s
    { a with
      messages := warningText warnings ++ a.messages
      warnings := warnings
      notes := if keepsNotes s then a.notes else [] }

/-- The outcomes up to the text that has none, and what happened there. -/
def outcomes [Interpreter] (settings : Settings) : List String → List Outcome × Option Interruption
  | [] => ([], none)
  | text :: texts =>
    match evaluate settings text with
    | .error i => ([], some i)
    | .ok o =>
      let (os, i) := outcomes settings texts
      (o :: os, i)

/-- One outcome is printed as a line, several as a table, and on demand all as records. -/
def printed (settings : Settings) (json : Bool) (os : List Outcome) : String :=
  if json then (Json.array (os.map Outcome.record)).print ++ "\n"
  else match os with
    | [o] => Session.shown (o.display settings.epsilon)
    | os => Report.resultsPage settings.epsilon os

def evaluateAll [Interpreter] (texts : List String) (json : Bool) (settings : Settings) : Answer :=
  let (os, interruption) := outcomes settings texts
  let notes := os.flatMap fun o => o.note?.toList
  match interruption with
  | some i => { exitCode := 1, notes, abort := some (.interruption i) }
  | none =>
    { exitCode := if os.all Outcome.ok then 0 else 1, output := printed settings json os, notes }

def banner (settings : Settings) : String :=
  Session.shown ("gridcalc (" ++ settings.mode.name ++
    " mode). Multiply with 'x'. 'C' clears, 'q' quits.")

def Abort.ofEnding? : Session.Ending → Option Abort
  | .farewell => none
  | .interruption i => some (.interruption i)

def converse [Interpreter] (input : String) (settings : Settings) : Answer :=
  let t := Session.run settings (Session.lines input.toList)
  let abort := t.ending.bind Abort.ofEnding?
  { exitCode := if abort.isSome then 1 else 0
    output := t.output
    messages := banner settings
    notes := t.notes
    abort := abort }

def listAll (settings : Settings) : Answer :=
  { exitCode := 0, output := Report.registryPage settings.mode }

def usage : String :=
  String.join
    ["Usage: gridcalc eval [--mode MODE] [--max-depth N] [--json] [--verbose] EXPRESSION...\n",
     "       gridcalc repl [--mode MODE] [--max-depth N] [--verbose]\n",
     "       gridcalc functions [--mode MODE]\n"]

def answer [Interpreter] (env : Environment) (input : String) : Request → Answer
  | .evaluate texts json p => withSettings env p (evaluateAll texts json)
  | .converse p => withSettings env p (converse input)
  | .list p => withSettings env p listAll
  | .help => { exitCode := 0, output := usage }

end Reckon.CommandLine
