import Reckon.Page.Style

/-! # Style markup

A tag is a pair of square brackets around a name that starts with a small letter, `#`, `/` or `@`.
A backslash in front makes it plain text, and so does `escape` for all tags of a text. A closing tag
closes the tag last opened in the same style, however the style is spelled. `plainText` is what a
reader of the page sees.
-/
namespace Reckon.Page
set_option autoImplicit false

/-- Marked-up text: `slashes` are the backslashes directly before a bracket. -/
inductive Token
  | char (c : Char)
  | slashes (n : Nat)
  | bracket (slashes : Nat)
  | tag (slashes : Nat) (body : List Char)
  deriving DecidableEq, Repr

def startsTag (c : Char) : Bool := c.isLower || c == '#' || c == '/' || c == '@'

def inTag (c : Char) : Bool := c != '[' && c != ']'

/-- Behind an opening bracket: the body of a tag and what follows the closing bracket. -/
def tagBody? : List Char → Option (List Char × List Char)
  | [] => none
  | first :: text =>
    if startsTag first then
      match text.dropWhile inTag with
      | ']' :: after => some (first :: text.takeWhile inTag, after)
      | _ => none
    else none

theorem eq_of_tagBody? {text body after : List Char} (h : tagBody? text = some (body, after)) :
    text = body ++ ']' :: after := by
  cases text with
  | nil => cases h
  | cons first text =>
    simp only [tagBody?] at h
    split at h
    · split at h
      · rename_i hDrop
        cases h
        rw [List.cons_append, ← hDrop, List.takeWhile_append_dropWhile]
      · cases h
    · cases h

theorem length_lt_of_tagBody? {text body after : List Char} (h : tagBody? text = some (body, after)) :
    after.length < text.length := by
  rw [eq_of_tagBody? h, List.length_append, List.length_cons]
  omega

/-- The tokens of a text that stands behind `pending` backslashes. -/
def tokens (pending : Nat) (text : List Char) : List Token :=
  let flushed : List Token := if pending = 0 then [] else [.slashes pending]
  match text with
  | [] => flushed
  | c :: text =>
    if c = '\\' then tokens (pending + 1) text
    else if c = '[' then
      match h : tagBody? text with
      | some (body, after) =>
        have := length_lt_of_tagBody? h
        .tag pending body :: tokens 0 after
      | none => .bracket pending :: tokens 0 text
    else flushed ++ .char c :: tokens 0 text
termination_by text.length

def backslashes (n : Nat) : List Char := List.replicate n '\\'

namespace Token

def text : Token → List Char
  | char c => [c]
  | slashes n => backslashes n
  | bracket n => backslashes n ++ ['[']
  | tag n body => backslashes n ++ '[' :: (body ++ [']'])

def escaped : Token → List Char
  | tag n body => backslashes (2 * n + 1) ++ '[' :: (body ++ [']'])
  | token => token.text

end Token

theorem text_tokens (pending : Nat) (text : List Char) :
    (tokens pending text).flatMap Token.text = backslashes pending ++ text := by
  fun_induction tokens pending text with
  | case1 pending flushed =>
    by_cases h : pending = 0 <;> simp [flushed, h, Token.text, backslashes]
  | case2 pending flushed ih =>
    rw [ih]
    simp [backslashes, List.replicate_succ', List.append_assoc]
  | case3 pending text body after hBody hLess h ih =>
    rw [List.flatMap_cons, ih, eq_of_tagBody? hBody]
    simp [Token.text, backslashes]
  | case4 pending text h hBody ih =>
    rw [List.flatMap_cons, ih]
    simp [Token.text, backslashes]
  | case5 pending flushed c text h h' ih =>
    rw [List.flatMap_append, List.flatMap_cons, ih]
    by_cases hZero : pending = 0 <;> simp [flushed, hZero, Token.text, backslashes]

/-- One backslash at the very end is doubled. -/
def closeSlashes (text : List Char) : List Char :=
  match text.reverse with
  | '\\' :: '\\' :: _ => text
  | '\\' :: _ => text ++ ['\\']
  | _ => text

def escape (text : List Char) : List Char :=
  closeSlashes ((tokens 0 text).flatMap Token.escaped)

inductive MarkupFlaw
  | unopenedTag (body : List Char) (position : Nat)
  | emptyShare
  deriving DecidableEq, Repr

def MarkupFlaw.message : MarkupFlaw → String
  | unopenedTag body position =>
    "closing tag '[" ++ String.ofList body ++ "]' at position " ++ toString position ++
      (if body = ['/'] then " has nothing to close" else " doesn't match any open tag")
  | emptyShare => "invalid literal for int() with base 10: ''"

/-- The name under which a tag is compared: that of its style, or its own in small letters if it
    names no style. -/
def tagName (name : List Char) : Except MarkupFlaw (List Char) :=
  match Style.parse name with
  | .ok style => .ok style.print
  | .error .unknownWord => .ok (Text.lower (Text.strip Text.isBlank name))
  | .error .emptyShare => .error .emptyShare

/-- The open tags after a tag, last opened first. What follows an equals sign is no part of a name. -/
def afterTag (position : Nat) (body : List Char) (opened : List (List Char)) :
    Except MarkupFlaw (List (List Char)) :=
  match body.takeWhile (· != '=') with
  | '/' :: name =>
    if (Text.strip Text.isBlank name).isEmpty then
      match opened with
      | [] => .error (.unopenedTag ['/'] position)
      | _ :: opened => .ok opened
    else do
      let name ← tagName name
      if opened.contains name then return opened.erase name
      else throw (.unopenedTag body position)
  | name => do return (← tagName name) :: opened

/-- What is seen of the tokens, of which the first stands at `position`. -/
def seen (position : Nat) (opened : List (List Char)) : List Token → Except MarkupFlaw (List Char)
  | [] => .ok []
  | .tag n body :: rest => do
    let start := position + n
    let next := start + body.length + 2
    if n % 2 = 1 then
      return backslashes (n / 2) ++ '[' :: (body ++ ']' :: (← seen next opened rest))
    else
      let opened ← afterTag start body opened
      return backslashes (n / 2) ++ (← seen next opened rest)
  | .bracket n :: rest => do
    return backslashes (n - 1) ++ '[' :: (← seen (position + n + 1) opened rest)
  | .slashes n :: rest => do
    return backslashes n ++ (← seen (position + n) opened rest)
  | .char c :: rest => do
    return c :: (← seen (position + 1) opened rest)

def plainText (markup : List Char) : Except MarkupFlaw (List Char) := seen 0 [] (tokens 0 markup)

end Reckon.Page
