import Reckon.CommandLine.Run

/-! # The program -/
namespace Reckon
set_option autoImplicit false
open CommandLine

def environmentNames : List String :=
  ["GRIDCALC_MODE", "GRIDCALC_MAX_DEPTH", "GRIDCALC_EPSILON", "GRIDCALC_LOG_LEVEL"]

def readEnvironment : IO Environment := do
  let found ← environmentNames.mapM fun name => return (name, ← IO.getEnv name)
  return fun name => (found.lookup name).join

def report (a : Answer) : IO UInt32 := do
  IO.eprint a.messages
  IO.print a.output
  for note in a.notes do IO.eprintln note
  for abort in a.abort do IO.eprintln abort.message
  return a.exitCode.toUInt32

/-- Takes one line after another as they are typed. -/
partial def conversation [Interpreter] (settings : Settings) : IO UInt32 := do
  IO.print Session.prompt
  (← IO.getStdout).flush
  let line ← (← IO.getStdin).getLine
  if line.isEmpty then return 0
  let turn := Session.turn settings line.toList
  IO.print turn.output
  if keepsNotes settings then
    for note in turn.note do IO.eprintln note
  match turn.ending with
  | none => conversation settings
  | some .farewell => return 0
  | some (.interruption i) =>
    IO.eprintln i.message
    return 1

def perform [Interpreter] (env : Environment) : Request → IO UInt32
  | .converse p =>
    match settings env p with
    | .error refusal => report refusal
    | .ok (s, warnings) => do
      IO.eprint (warningText warnings ++ banner s)
      conversation s
  | request => report (answer env "" request)

end Reckon

def main (args : List String) : IO UInt32 := do
  match Reckon.CommandLine.request? args with
  | none =>
    IO.eprint Reckon.CommandLine.usage
    return 2
  | some request => Reckon.perform (← Reckon.readEnvironment) request
