import Reckon.Page.Color

/-! # Styles

A style is written as words: attributes, which `not` turns off, a colour, another behind `on` for the
background, and an address behind `link`. It has many spellings; `print` gives the one by which
styles are compared.
-/
namespace Reckon.Page
set_option autoImplicit false
open Text (isBlank strip lower fields)

inductive Attribute
  | bold | dim | italic | underline | blink | fastBlink | reverse | conceal | strike
  | doubleUnderline | frame | encircle | overline
  deriving DecidableEq, Repr

namespace Attribute

def all : List Attribute :=
  [bold, dim, italic, underline, blink, fastBlink, reverse, conceal, strike, doubleUnderline, frame,
   encircle, overline]

def name : Attribute → String
  | bold => "bold"
  | dim => "dim"
  | italic => "italic"
  | underline => "underline"
  | blink => "blink"
  | fastBlink => "blink2"
  | reverse => "reverse"
  | conceal => "conceal"
  | strike => "strike"
  | doubleUnderline => "underline2"
  | frame => "frame"
  | encircle => "encircle"
  | overline => "overline"

def short? : Attribute → Option String
  | bold => some "b"
  | dim => some "d"
  | italic => some "i"
  | underline => some "u"
  | reverse => some "r"
  | conceal => some "c"
  | strike => some "s"
  | doubleUnderline => some "uu"
  | overline => some "o"
  | _ => none

def ofName? (name : List Char) : Option Attribute :=
  all.find? fun a => a.name == String.ofList name || a.short? == some (String.ofList name)

end Attribute

structure Style where
  attributes : List (Attribute × Bool) := []
  color : Option (List Char) := none
  background : Option (List Char) := none
  link : Option (List Char) := none
  deriving DecidableEq, Repr

namespace Style

def set (s : Style) (a : Attribute) (on : Bool) : Style :=
  { s with attributes := (a, on) :: s.attributes }

/-- A style under a word that stands alone. -/
def under (s : Style) (word : List Char) : Except StyleFlaw Style :=
  match Attribute.ofName? (lower word) with
  | some a => .ok (s.set a true)
  | none => do return { s with color := some (← colorName word) }

def extend (s : Style) : List (List Char) → Except StyleFlaw Style
  | [] => .ok s
  | [word] => s.under word
  | word :: next :: words =>
    match String.ofList (lower word) with
    | "on" => do extend { s with background := some (← colorName next) } words
    | "not" =>
      match Attribute.ofName? next with
      | some a => extend (s.set a false) words
      | none => .error .unknownWord
    | "link" => extend { s with link := some next } words
    | _ => do extend (← s.under word) (next :: words)

def parse (text : List Char) : Except StyleFlaw Style :=
  if strip isBlank text = "none".toList then .ok {} else extend {} (fields text)

def attributeWords (s : Style) : List (List Char) :=
  Attribute.all.flatMap fun a =>
    match s.attributes.lookup a with
    | some true => [a.name.toList]
    | some false => ["not".toList, a.name.toList]
    | none => []

def words (s : Style) : List (List Char) :=
  s.attributeWords ++ s.color.toList ++
    (match s.background with
      | some name => ["on".toList, name]
      | none => []) ++
    match s.link with
      | some address => ["link".toList, address]
      | none => []

def print (s : Style) : List Char :=
  if s.words.isEmpty then "none".toList else List.intercalate [' '] s.words

end Style
end Reckon.Page
