/-! # Options and operands

Options may stand before, between and after the operands; after two dashes all are operands. A long
option takes its value behind an equals sign or from the next argument, a short one from what follows
in the same argument or from the next. Of several values the last counts.
-/
namespace Reckon.CommandLine
set_option autoImplicit false

inductive Switch
  | mode | maxDepth | json | verbose | help
  deriving DecidableEq, Repr

namespace Switch

def all : List Switch := [mode, maxDepth, json, verbose, help]

def long : Switch → String
  | mode => "mode"
  | maxDepth => "max-depth"
  | json => "json"
  | verbose => "verbose"
  | help => "help"

def short? : Switch → Option Char
  | mode => some 'm'
  | verbose => some 'v'
  | _ => none

def takesValue : Switch → Bool
  | mode | maxDepth => true
  | _ => false

end Switch

/-- An option as it was given; without a value its text is empty. -/
structure Given where
  switch : Switch
  text : List Char := []
  deriving DecidableEq, Repr

/-- What an argument says: the options in it, and whether the value of one more is to come. -/
structure Said where
  given : List Given := []
  awaits : Option Switch := none

def cluster? (known : List Switch) : List Char → Option Said
  | [] => some {}
  | c :: more =>
    match known.find? (·.short? == some c) with
    | none => none
    | some switch =>
      if switch.takesValue then
        if more.isEmpty then some { awaits := some switch } else some { given := [⟨switch, more⟩] }
      else (cluster? known more).map fun said => { said with given := ⟨switch, []⟩ :: said.given }

def long? (known : List Switch) (body : List Char) : Option Said :=
  let name := String.ofList (body.takeWhile (· != '='))
  match known.find? (·.long == name), body.dropWhile (· != '=') with
  | none, _ => none
  | some switch, '=' :: value =>
    if switch.takesValue then some { given := [⟨switch, value⟩] } else none
  | some switch, _ =>
    if switch.takesValue then some { awaits := some switch } else some { given := [⟨switch, []⟩] }

structure Arguments where
  given : List Given := []
  operands : List String := []

def Arguments.last? (a : Arguments) (switch : Switch) : Option String :=
  (a.given.reverse.find? (·.switch == switch)).map fun g => String.ofList g.text

def Arguments.has (a : Arguments) (switch : Switch) : Bool := a.given.any (·.switch == switch)

def continueWith (said : Said) (rest : List String → Option Arguments) (args : List String) :
    Option Arguments :=
  match said.awaits, args with
  | none, args => (rest args).map fun a => { a with given := said.given ++ a.given }
  | some _, [] => none
  | some switch, value :: args =>
    (rest args).map fun a => { a with given := said.given ++ ⟨switch, value.toList⟩ :: a.given }

def argumentsWithin? (known : List Switch) : Nat → List String → Option Arguments
  | 0, _ | _, [] => some {}
  | count + 1, arg :: args =>
    let later := argumentsWithin? known count
    match arg.toList with
    | ['-', '-'] => some { operands := args }
    | '-' :: '-' :: body => do continueWith (← long? known body) later args
    | '-' :: c :: body => do continueWith (← cluster? known (c :: body)) later args
    | _ => (later args).map fun a => { a with operands := arg :: a.operands }

/-- There are no arguments if an option is not known, lacks its value or has one that it does not
    take. -/
def arguments? (known : List Switch) (args : List String) : Option Arguments :=
  argumentsWithin? known args.length args

end Reckon.CommandLine
