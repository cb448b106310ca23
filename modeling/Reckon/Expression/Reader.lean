import Reckon.Expression.Code
import Reckon.Numeral
import Reckon.Text.Blank

/-! # Reading expressions

```text
expression := product { ("+" | "-") product }
product    := power { ("x" | "//" | "/") power }
power      := factor [ "^" power ]
factor     := { "-" } primary { "!" | "%" }
primary    := numeral | name | name "(" expression { "," expression } ")"
            | "(" expression ")" | "[" expression "]" | "{" expression "}"
```

Each level is a reader made from readers of its parts. The recursion is on how many levels of nesting
are left: an open bracket or call takes one, and so does the right side of a power.
-/
namespace Reckon
set_option autoImplicit false

/-- What a program runs on follows only so many levels of nesting, whatever limit is set. How many they
    are is left open here. -/
class Interpreter where
  levels : Nat
  positive : 0 < levels

/-- A thousand levels, where no other interpreter is given. -/
instance : Interpreter := ⟨1000, by decide⟩

namespace Expression
open Text (isBlank)

/-- From a cursor to the cursor behind what was read. -/
abbrev Reader := Cursor → Reading Cursor

def Cursor.skipBlanks (c : Cursor) : Cursor :=
  ⟨c.position + (c.rest.takeWhile isBlank).length, c.rest.dropWhile isBlank⟩

def refuse (cause : Cause) : Reader := fun c => c.fail cause

/-- Minus signs with blanks around them: whether their number is odd, and where they end. -/
def minusSigns (negated : Bool) (position : Nat) : List Char → Bool × Cursor
  | [] => (negated, ⟨position, []⟩)
  | c :: rest =>
    if isBlank c then minusSigns negated (position + 1) rest
    else if c = '-' then minusSigns (!negated) (position + 1) rest
    else (negated, ⟨position, c :: rest⟩)

def suffixes (negated : Bool) (position : Nat) : List Char → Reading Cursor
  | [] => pure ⟨position, []⟩
  | c :: rest =>
    if isBlank c then suffixes negated (position + 1) rest
    else if c = '!' then do
      Cursor.emit ⟨position + 1, rest⟩ (.factorial negated)
      suffixes negated (position + 1) rest
    else if c = '%' then do
      Cursor.emit ⟨position + 1, rest⟩ .percent
      suffixes negated (position + 1) rest
    else pure ⟨position, c :: rest⟩

def numeral : Reader := fun c =>
  match Numeral.scan? c.rest with
  | none => c.fail .lonePoint
  | some (n, _) => do
    let after := c.advance n.text.length
    after.emit (.literal n.value)
    pure after

/-- Arguments behind commas, counted on from `count`; at most `bound` of them. -/
def moreArguments (inside : Reader) : Nat → Nat → Cursor → Reading (Nat × Cursor)
  | 0, count, c => pure (count, c)
  | bound + 1, count, c =>
    match c.rest with
    | ',' :: _ => do
      let c ← inside (c.advance 1)
      moreArguments inside bound (count + 1) c
    | _ => pure (count, c)

/-- The arguments of a call and the bracket that closes it. `start` is where the name stands. -/
def call (inside : Reader) (f : Builtin) (start : Nat) : Reader := fun c => do
  let c ← inside c
  let (count, c) ← moreArguments inside c.rest.length 1 c
  match c.rest with
  | ')' :: _ =>
    let after := c.advance 1
    if count = f.arity then
      after.emit (.call f)
      pure after
    else .fail ⟨.arityMismatch f count, start, after.position⟩
  | _ => c.fail (.openArguments f)

def name (inside : Reader) : Reader := fun c =>
  let letters := c.rest.takeWhile Char.isAlpha
  let word := String.ofList letters
  let after := (c.advance letters.length).skipBlanks
  match after.rest with
  | '(' :: _ =>
    match Builtin.ofName? word with
    | none => .fail ⟨.unknownFunction word, c.position, after.position⟩
    | some f => call inside f c.position (after.advance 1)
  | _ => do
    .emit ⟨.constant word, c.position, after.position⟩
    pure after

def group (inside : Reader) (b : Bracket) : Reader := fun c => do
  let c ← inside (c.advance 1)
  match c.rest with
  | closer :: _ => if closer = b.closer then pure (c.advance 1) else c.fail (.openBracket b)
  | [] => c.fail (.openBracket b)

def primary (inside : Reader) : Reader := fun c =>
  match c.rest with
  | [] => c.fail .endOfInput
  | first :: _ =>
    if first.isAlpha then name inside c
    else if first.isDigit || first = '.' then numeral c
    else match Bracket.ofOpener? first with
      | some b => group inside b c
      | none => c.fail (.unexpected first)

def factor (inside : Reader) : Reader := fun c => do
  let (negated, c) := minusSigns false c.position c.rest
  let c ← primary inside c
  let c ← suffixes negated c.position c.rest
  if negated then c.emit .negate
  pure c

/-- A factor, and the power behind it that is its exponent. -/
def powerOf (inside exponent : Reader) : Reader := fun c => do
  let c ← factor inside c
  match c.rest with
  | '^' :: _ =>
    let c ← exponent (c.advance 1)
    c.emit (.binary .pow)
    pure c
  | _ => pure c

/-- Operators with their right operands, folded to the left; at most `bound` of them. -/
def links (operator? : List Char → Option (Operator × Nat)) (operand : Reader) : Nat → Reader
  | 0, c => pure c
  | bound + 1, c =>
    match operator? c.rest with
    | none => pure c
    | some (op, width) => do
      let c ← operand (c.advance width)
      c.emit (.binary op)
      links operator? operand bound c

/-- Operands with operators between them. There are no more operators than characters. -/
def chain (operator? : List Char → Option (Operator × Nat)) (operand : Reader) : Reader := fun c => do
  let c ← operand c
  links operator? operand c.rest.length c

def productOperator? : List Char → Option (Operator × Nat)
  | 'x' :: _ => some (.mul, 1)
  | '/' :: '/' :: _ => some (.floorDiv, 2)
  | '/' :: _ => some (.div, 1)
  | _ => none

def sumOperator? : List Char → Option (Operator × Nat)
  | '+' :: _ => some (.add, 1)
  | '-' :: _ => some (.sub, 1)
  | _ => none

def productsOf (power : Reader) : Reader := chain productOperator? power

def sumsOf (power : Reader) : Reader := chain sumOperator? (productsOf power)

/-- A power inside of which `levels` more levels may be opened. -/
def power (deep : Cause) : Nat → Reader
  | 0 => powerOf (refuse deep) (refuse deep)
  | levels + 1 => powerOf (sumsOf (power deep levels)) (power deep levels)

/-- An expression that takes up one of `levels` levels. -/
def expression (deep : Cause) : Nat → Reader
  | 0 => refuse deep
  | levels + 1 => sumsOf (power deep levels)

section Limits

variable [Interpreter]

/-- No text is read that nests deeper, whatever limit is set. -/
def reach : Nat := Interpreter.levels

def levels (limit : Int) : Nat := min limit.toNat reach

def tooDeep (limit : Int) : Cause := if limit ≤ reach then .tooDeep limit else .beyondReach

def read (limit : Int) (text : List Char) : Reading Unit := do
  let c ← expression (tooDeep limit) (levels limit) ⟨0, text⟩
  match c.rest with
  | [] => pure ()
  | next :: _ => c.fail (.trailing next)

end Limits

end Expression
end Reckon
