import Reckon.Json
import Reckon.Numeral

/-! # Reading JSON

A strict reader: nothing but blanks around the document, between its marks and around its values; no control
characters and no half of a surrogate pair in a text; no number with a leading zero or a bare point. Words
other than `null`, `true` and `false` are refused. The bound of `value?` is on nesting and on the elements of
one array or object; a text as long as the bound cannot exceed it.
-/
namespace Reckon.Json
set_option autoImplicit false

/-- What a JSON text says. The sign of a number is kept apart, for a zero has one too. -/
inductive Value
  | null
  | boolean (b : Bool)
  | number (minus : Bool) (magnitude : Decimal)
  | text (s : String)
  | array (items : List Value)
  | object (members : List (String × Value))

namespace Reader

def isBlank (c : Char) : Bool := c == ' ' || c == '\n' || c == '\r' || c == '\t'

def skip (input : List Char) : List Char := input.dropWhile isBlank

/-! ## Texts -/

def hexDigit? (c : Char) : Option Nat :=
  if c.isDigit then some (c.toNat - '0'.toNat)
  else if 'a' ≤ c ∧ c ≤ 'f' then some (c.toNat - 'a'.toNat + 10)
  else if 'A' ≤ c ∧ c ≤ 'F' then some (c.toNat - 'A'.toNat + 10)
  else none

def hexadecimal? (digits : List Char) : Option Nat :=
  digits.foldlM (fun n c => (hexDigit? c).map (16 * n + ·)) 0

/-- The character that one letter or mark behind a backslash stands for. -/
def short? : Char → Option Char
  | '"' => some '"'
  | '\\' => some '\\'
  | '/' => some '/'
  | 'b' => some (Char.ofNat 8)
  | 'f' => some (Char.ofNat 12)
  | 'n' => some '\n'
  | 'r' => some '\r'
  | 't' => some '\t'
  | _ => none

/-- The code points and surrogates up to the closing quote, and what stands behind it. -/
def units? : List Char → Option (List Nat × List Char)
  | [] => none
  | '"' :: input => some ([], input)
  | '\\' :: 'u' :: a :: b :: c :: d :: input => do
    let unit ← hexadecimal? [a, b, c, d]
    let (units, rest) ← units? input
    return (unit :: units, rest)
  | '\\' :: mark :: input => do
    let c ← short? mark
    let (units, rest) ← units? input
    return (c.toNat :: units, rest)
  | c :: input =>
    if c.toNat < 32 then none
    else do
      let (units, rest) ← units? input
      return (c.toNat :: units, rest)

/-- Two surrogates make up one character; alone they are none. -/
def characters? : List Nat → Option (List Char)
  | [] => some []
  | unit :: units =>
    if 0xD800 ≤ unit ∧ unit < 0xDC00 then
      match units with
      | [] => none
      | low :: units =>
        if 0xDC00 ≤ low ∧ low < 0xE000 then
          (characters? units).map (Char.ofNat (0x10000 + 0x400 * (unit - 0xD800) + (low - 0xDC00)) :: ·)
        else none
    else if 0xDC00 ≤ unit ∧ unit < 0xE000 then none
    else (characters? units).map (Char.ofNat unit :: ·)

/-- A text behind its opening quote. -/
def string? (input : List Char) : Option (String × List Char) := do
  let (units, rest) ← units? input
  let characters ← characters? units
  return (String.ofList characters, rest)

/-! ## Numbers -/

/-- There are digits before the point and behind it, and a zero leads only where it stands alone. -/
def allows (n : Numeral) : Bool :=
  !n.whole.isEmpty && n.fraction != some [] && (n.whole.head? != some '0' || n.whole.length == 1)

def magnitude? (input : List Char) : Option (Decimal × List Char) := do
  let (n, rest) ← Numeral.scan? input
  if allows n then return (n.value, rest) else none

/-! ## Values -/

def word? : List Char → Option (Value × List Char)
  | 'n' :: 'u' :: 'l' :: 'l' :: rest => some (.null, rest)
  | 't' :: 'r' :: 'u' :: 'e' :: rest => some (.boolean true, rest)
  | 'f' :: 'a' :: 'l' :: 's' :: 'e' :: rest => some (.boolean false, rest)
  | _ => none

section Elements

variable {α : Type} (closer : Char) (element? : List Char → Option (α × List Char))

/-- Behind an element stands the closing mark, or a comma and a further element. -/
def later? : Nat → List Char → Option (List α × List Char)
  | 0, _ => none
  | bound + 1, input =>
    match skip input with
    | [] => none
    | c :: rest =>
      if c = closer then some ([], rest)
      else if c = ',' then do
        let (x, rest) ← element? rest
        let (xs, rest) ← later? bound rest
        return (x :: xs, rest)
      else none

/-- The elements behind an opening mark. -/
def elements? (bound : Nat) (input : List Char) : Option (List α × List Char) :=
  match element? input, skip input with
  | some (x, rest), _ => do
    let (xs, rest) ← later? closer element? bound rest
    return (x :: xs, rest)
  | none, c :: rest => if c = closer then some ([], rest) else none
  | none, [] => none

end Elements

/-- A name in quotes, a colon and a value. -/
def member? (value? : List Char → Option (Value × List Char)) (input : List Char) :
    Option ((String × Value) × List Char) :=
  match skip input with
  | '"' :: rest => do
    let (name, rest) ← string? rest
    match skip rest with
    | ':' :: rest => do
      let (value, rest) ← value? rest
      return ((name, value), rest)
    | _ => none
  | _ => none

def value? : Nat → List Char → Option (Value × List Char)
  | 0, _ => none
  | bound + 1, input =>
    match skip input with
    | [] => none
    | c :: rest =>
      if c = '"' then (string? rest).map fun (s, rest) => (.text s, rest)
      else if c = '[' then
        (elements? ']' (value? bound) bound rest).map fun (items, rest) => (.array items, rest)
      else if c = '{' then
        (elements? '}' (member? (value? bound)) bound rest).map fun (members, rest) => (.object members, rest)
      else if c = '-' then (magnitude? rest).map fun (d, rest) => (.number true d, rest)
      else if c.isDigit then (magnitude? (c :: rest)).map fun (d, rest) => (.number false d, rest)
      else word? (c :: rest)

end Reader

/-- The document of a text that is nothing else. -/
def read? (input : List Char) : Option Value :=
  match Reader.value? (input.length + 1) input with
  | some (value, rest) => if (Reader.skip rest).isEmpty then some value else none
  | none => none

/-! ## Looking into values -/

namespace Value

/-- The value of the one member with a name. -/
def member? (name : String) : Value → Option Value
  | object members =>
    match members.filter (·.1 == name) with
    | [(_, value)] => some value
    | _ => none
  | _ => none

def text? : Value → Option String
  | text s => some s
  | _ => none

def integer? : Value → Option Int
  | number minus ⟨n, 0⟩ => some (if minus then -n else n)
  | _ => none

/-- A number is read as the nearest binary64 number; what JSON has no number for is a word. -/
def float? : Value → Option Float
  | number minus magnitude => some (if minus then -magnitude.toFloat else magnitude.toFloat)
  | text s =>
    if s = "inf" then some Binary64.infinity
    else if s = "-inf" then some (-Binary64.infinity)
    else if s = "nan" then some Binary64.nan
    else none
  | _ => none

end Value
end Reckon.Json
