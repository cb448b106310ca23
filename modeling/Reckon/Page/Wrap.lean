import Reckon.Text.Split
import Reckon.Text.Width

/-! # Breaking text into lines

Lines are broken between words. A word that is wider than a whole line is folded onto several, or
stays on one of its own and is cut short.
-/
namespace Reckon.Page
set_option autoImplicit false
open Text (isBlank width columns splitOn)

/-- Controls that a terminal would act on are not printed: bell, backspace and the moves to the start
    of a line, down a line or down a page. -/
def isDropped (c : Char) : Bool := [7, 8, 11, 12, 13].contains c.toNat

def printed (text : List Char) : List Char := text.filter fun c => !isDropped c

def tabWidth : Nat := 8

/-- Tabs become blanks up to the next stop. `column` is where the text starts. -/
def expandTabs (column : Nat) : List Char → List Char
  | [] => []
  | c :: text =>
    if c = '\t' then
      let blanks := tabWidth - column % tabWidth
      List.replicate blanks ' ' ++ expandTabs (column + blanks) text
    else c :: expandTabs (column + width c) text

def trimRight (text : List Char) : List Char := (text.reverse.dropWhile isBlank).reverse

/-- A word with the blanks around it, and the rest. -/
def word? (text : List Char) : Option (List Char × List Char) :=
  let before := text.takeWhile isBlank
  let text := text.dropWhile isBlank
  let body := text.takeWhile fun c => !isBlank c
  let text := text.dropWhile fun c => !isBlank c
  if body.isEmpty then none
  else some (before ++ body ++ text.takeWhile isBlank, text.dropWhile isBlank)

def firstWords : Nat → List Char → List (List Char)
  | 0, _ => []
  | count + 1, text =>
    match word? text with
    | none => []
    | some (word, rest) => word :: firstWords count rest

/-- The words of a text, each with the blanks behind it; there are no more than characters. -/
def words (text : List Char) : List (List Char) := firstWords text.length text

/-- Cuts a text into pieces of at most `limit` columns. `room` is what is left of the first. -/
def chop (limit room : Nat) : List Char → List (List Char)
  | [] => [[]]
  | c :: text =>
    if width c ≤ room then
      match chop limit (room - width c) text with
      | piece :: pieces => (c :: piece) :: pieces
      | [] => [[c]]
    else
      match chop limit (limit - width c) text with
      | piece :: pieces => [] :: (c :: piece) :: pieces
      | [] => [[], [c]]

inductive Overflow
  | fold | ellipsis
  deriving DecidableEq, Repr

/-- Words into lines. `line` is what stands on the current one. -/
def fill (overflow : Overflow) (limit : Nat) (line : List Char) : List (List Char) → List (List Char)
  | [] => [line]
  | word :: words =>
    let wide := columns (trimRight word)
    if columns line + wide ≤ limit then fill overflow limit (line ++ word) words
    else
      let before := if line.isEmpty then [] else [line]
      if limit < wide ∧ overflow = .fold then
        let pieces := chop limit limit word
        before ++ pieces.dropLast ++ fill overflow limit (pieces.getLastD []) words
      else before ++ fill overflow limit word words

def trimExcess (limit : Nat) (line : List Char) : List Char :=
  let blanks := line.length - (trimRight line).length
  line.take (line.length - min blanks (line.length - limit))

def breakLine (overflow : Overflow) (limit : Nat) (line : List Char) : List (List Char) :=
  let line := expandTabs 0 line
  let lines := match words line with
    | [] => [line]
    | words => fill overflow limit [] words
  lines.map (trimExcess limit)

def breakText (overflow : Overflow) (limit : Nat) (text : List Char) : List (List Char) :=
  (splitOn (· == '\n') (printed text)).flatMap (breakLine overflow limit)

def blanks (n : Nat) : List Char := List.replicate n ' '

def crop : Nat → List Char → List Char
  | _, [] => []
  | room, c :: text => if width c ≤ room then c :: crop (room - width c) text else []

/-- The start of a line that is too long, as many columns wide as the limit says. -/
def cut (limit : Nat) (line : List Char) : List Char :=
  let start := crop limit line
  start ++ blanks (limit - columns start)

def shorten (overflow : Overflow) (limit : Nat) (line : List Char) : List Char :=
  if columns line ≤ limit then line
  else match overflow with
    | .fold => cut limit line
    | .ellipsis => cut (limit - 1) line ++ ['…']

/-- The lines of a text, none wider than the limit. -/
def wrap (limit : Nat) (text : List Char) : List (List Char) :=
  (breakText .fold limit text).map (shorten .fold limit)

theorem columns_append (a b : List Char) : columns (a ++ b) = columns a + columns b := by
  induction a with
  | nil => simp [columns]
  | cons c a ih => simp [columns, ih, Nat.add_assoc]

end Reckon.Page
