import Reckon.CommandLine.Options
import Reckon.Text.NumberText

/-! # What is asked for on the command line -/
namespace Reckon.CommandLine
set_option autoImplicit false

structure Preferences where
  mode : Option String
  maxDepth : Option Int
  verbose : Bool

inductive Request
  | evaluate (texts : List String) (json : Bool) (preferences : Preferences)
  | converse (preferences : Preferences)
  | list (preferences : Preferences)
  | help

inductive Command
  | eval | repl | functions
  deriving DecidableEq, Repr

namespace Command

def ofName? : String → Option Command
  | "eval" => some eval
  | "repl" => some repl
  | "functions" => some functions
  | _ => none

def switches : Command → List Switch
  | eval => [.mode, .maxDepth, .json, .verbose, .help]
  | repl => [.mode, .maxDepth, .verbose, .help]
  | functions => [.mode, .help]

end Command

def preferences? (a : Arguments) : Option Preferences :=
  let verbose := a.has .verbose
  match a.last? .maxDepth with
  | none => some ⟨a.last? .mode, none, verbose⟩
  | some text => do return ⟨a.last? .mode, some (← Text.count? text), verbose⟩

def Command.request? (command : Command) (args : List String) : Option Request := do
  let a ← arguments? command.switches args
  if a.has .help then return .help
  let preferences ← preferences? a
  match command, a.operands with
  | .eval, [] => none
  | .eval, texts => return .evaluate texts (a.has .json) preferences
  | .repl, [] => return .converse preferences
  | .functions, [] => return .list preferences
  | _, _ => none

def request? : List String → Option Request
  | "--help" :: _ => some .help
  | "--" :: name :: args => do (← Command.ofName? name).request? args
  | name :: args => do (← Command.ofName? name).request? args
  | [] => none

end Reckon.CommandLine
