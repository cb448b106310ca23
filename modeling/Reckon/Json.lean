import Reckon.Decimal.Layout
import Reckon.Text.Quoted

/-! # JSON documents

Members keep their order. The printed text is plain ASCII, with one item or member a line, indented by
two blanks a level.
-/
namespace Reckon
set_option autoImplicit false

inductive Json
  | integer (n : Int)
  | float (x : Float)
  | text (s : String)
  | array (items : List Json)
  | object (members : List (String × Json))

namespace Json

def unicodeEscape (unit : Nat) : List Char := '\\' :: 'u' :: Text.hexadecimal 4 unit

/-- One character between quotes. Beyond the first plane it is written as two surrogates. -/
def escaped (c : Char) : List Char :=
  if c == '"' || c == '\\' then ['\\', c]
  else if c == '\n' then ['\\', 'n']
  else if c == '\r' then ['\\', 'r']
  else if c == '\t' then ['\\', 't']
  else if c.toNat = 8 then ['\\', 'b']
  else if c.toNat = 12 then ['\\', 'f']
  else if 32 ≤ c.toNat ∧ c.toNat < 127 then [c]
  else if c.toNat < 0x10000 then unicodeEscape c.toNat
  else
    unicodeEscape (0xD800 + (c.toNat - 0x10000) / 0x400) ++
      unicodeEscape (0xDC00 + (c.toNat - 0x10000) % 0x400)

def quoted (s : String) : List Char := '"' :: (s.toList.flatMap escaped ++ ['"'])

def newLine (level : Nat) : List Char := '\n' :: List.replicate (2 * level) ' '

mutual

def render (level : Nat) : Json → List Char
  | integer n => (toString n).toList
  | float x => (Decimal.exact x).toList
  | text s => quoted s
  | array [] => ['[', ']']
  | array (item :: items) =>
    '[' :: (newLine (level + 1) ++ item.render (level + 1) ++ renderItems (level + 1) items ++
      newLine level ++ [']'])
  | object [] => ['{', '}']
  | object ((key, value) :: members) =>
    '{' :: (newLine (level + 1) ++ renderMember (level + 1) key value ++
      renderMembers (level + 1) members ++ newLine level ++ ['}'])

def renderItems (level : Nat) : List Json → List Char
  | [] => []
  | item :: items => ',' :: (newLine level ++ item.render level ++ renderItems level items)

def renderMember (level : Nat) (key : String) (value : Json) : List Char :=
  quoted key ++ (':' :: ' ' :: value.render level)

def renderMembers (level : Nat) : List (String × Json) → List Char
  | [] => []
  | (key, value) :: members =>
    ',' :: (newLine level ++ renderMember level key value ++ renderMembers level members)

end

def print (document : Json) : String := String.ofList (document.render 0)

end Json
end Reckon
