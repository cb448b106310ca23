import Reckon.Numeral
import Reckon.Text.Blank
import Reckon.Text.DecimalDigit

/-! # Numbers as people write them in settings

Digits of every script are read, blanks around the number are ignored, and a single underscore may
stand between two digits. A count on a command line is written in plain digits only, by rules of its own.
-/
namespace Reckon.Text
set_option autoImplicit false

/-- Digits of other scripts become plain digits and their blanks plain spaces. -/
def plain (c : Char) : Char :=
  if c.toNat < 127 then c
  else if isBlank c then ' '
  else match digitValue? c with
    | some d => Char.ofNat ('0'.toNat + d)
    | none => c

/-- The text without its underscores, if each of them stands between two digits. `before` is the
    character in front. -/
def dropUnderscores (before : Char) : List Char → Option (List Char)
  | [] => if before = '_' then none else some []
  | c :: text =>
    if c = '_' then
      if before.isDigit then dropUnderscores c text else none
    else if before = '_' && !c.isDigit then none
    else (c :: ·) <$> dropUnderscores c text

def takeSign : List Char → Bool × List Char
  | '-' :: text => (true, text)
  | '+' :: text => (false, text)
  | text => (false, text)

def longestInteger : Nat := 4300

def integer? (text : String) : Option Int := do
  let (minus, body) := takeSign (strip isPlainBlank (text.toList.map plain))
  let digits ← dropUnderscores ' ' body
  if digits.isEmpty || !digits.all Char.isDigit || longestInteger < digits.length then none
  let n : Int := Decimal.digitsValue (digits.map digitValue)
  return if minus then -n else n

def dropPlus : List Char → List Char
  | '+' :: text => text
  | text => text

/-- The text of an option's whole number without the zeros in front, between which underscores may
    stand in any number. -/
def dropZeros : List Char → List Char
  | '0' :: text => text.dropWhile fun c => c == '0' || c == '_'
  | text => text

/-- A whole number from one upwards, as it is written on a command line: in plain digits, of which
    zeros may follow a point. These are the rules by which typer reads an option; what the environment
    sets is read by those of `integer?`, where no point may stand and no two underscores in a row. -/
def count? (text : String) : Option Nat := do
  let body := dropZeros (dropPlus (strip isSpace text.toList))
  let fraction := (body.dropWhile (· != '.')).drop 1
  let digits ← dropUnderscores ' ' (body.takeWhile (· != '.'))
  if digits.isEmpty || !digits.all Char.isDigit || longestInteger < digits.length then none
  let n := Decimal.digitsValue (digits.map digitValue)
  if n = 0 || !fraction.all (· == '0') then none
  return n

/-- A binary64 number: a numeral, or a word for an infinity or for no number. -/
def float? (text : String) : Option Float := do
  let body ← dropUnderscores ' ' (strip isPlainBlank (text.toList.map plain))
  let (minus, body) := takeSign body
  let word := String.ofList (body.map Char.toLower)
  let magnitude ←
    if word = "inf" ∨ word = "infinity" then some Binary64.infinity
    else if word = "nan" then some Binary64.nan
    else match Numeral.scan? body with
      | some (n, []) => some n.value.toFloat
      | _ => none
  return if minus then -magnitude else magnitude

end Reckon.Text
