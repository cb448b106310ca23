import Reckon.Text.Printable

/-! # Quoted text

Text in single quotes, or in double quotes where it holds a single one and no double one. The quote
in use, the backslash and what cannot be printed are escaped.
-/
namespace Reckon.Text
set_option autoImplicit false

/-- Lower-case hexadecimal, padded with zeros. -/
def hexadecimal (width n : Nat) : List Char :=
  let digits := Nat.toDigits 16 n
  List.replicate (width - digits.length) '0' ++ digits

def quoteMark (text : List Char) : Char :=
  if text.contains '\'' && !text.contains '"' then '"' else '\''

def escaped (mark c : Char) : List Char :=
  if c == mark || c == '\\' then ['\\', c]
  else if c == '\n' then ['\\', 'n']
  else if c == '\r' then ['\\', 'r']
  else if c == '\t' then ['\\', 't']
  else if isPrintable c then [c]
  else if c.toNat < 0x100 then '\\' :: 'x' :: hexadecimal 2 c.toNat
  else if c.toNat < 0x10000 then '\\' :: 'u' :: hexadecimal 4 c.toNat
  else '\\' :: 'U' :: hexadecimal 8 c.toNat

def quoted (text : List Char) : List Char :=
  let mark := quoteMark text
  mark :: (text.flatMap (escaped mark) ++ [mark])

def quotedText (text : String) : String := String.ofList (quoted text.toList)

end Reckon.Text
