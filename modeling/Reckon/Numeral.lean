import Reckon.Decimal

/-! # Numerals

A numeral has digits, at most one point among or around them, and may have an exponent. `scan` takes
the longest numeral off a text and `text` writes it back: what is taken and what is left make up the
text again.
-/
namespace Reckon
set_option autoImplicit false

def digitValue (c : Char) : Nat := c.toNat - '0'.toNat

structure Exponent where
  mark : Char
  sign : Option Char
  digits : List Char
  deriving DecidableEq, Repr

namespace Exponent

def text (e : Exponent) : List Char := e.mark :: (e.sign.toList ++ e.digits)

def value (e : Exponent) : Int :=
  let n : Int := Decimal.digitsValue (e.digits.map digitValue)
  if e.sign = some '-' then -n else n

def takeSign : List Char → Option Char × List Char
  | '+' :: text => (some '+', text)
  | '-' :: text => (some '-', text)
  | text => (none, text)

/-- An exponent without digits is none, and nothing of it is taken. -/
def scan? : List Char → Option (Exponent × List Char)
  | [] => none
  | mark :: text =>
    if mark = 'e' ∨ mark = 'E' then
      let (sign, text) := takeSign text
      match text.takeWhile Char.isDigit with
      | [] => none
      | digits => some (⟨mark, sign, digits⟩, text.dropWhile Char.isDigit)
    else none

theorem takeSign_eq {text rest : List Char} {sign : Option Char}
    (h : takeSign text = (sign, rest)) : text = sign.toList ++ rest := by
  unfold takeSign at h
  split at h <;> (cases h; rfl)

theorem eq_of_scan? {text rest : List Char} {e : Exponent} (h : scan? text = some (e, rest)) :
    text = e.text ++ rest := by
  cases text with
  | nil => cases h
  | cons mark text =>
    simp only [scan?] at h
    split at h
    · split at h
      · cases h
      · cases h
        rw [Exponent.text, List.cons_append, List.append_assoc, List.takeWhile_append_dropWhile]
        exact congrArg _ (takeSign_eq rfl)
    · cases h

end Exponent

/-- The digits before the point, those after it if there is a point, and the exponent. -/
structure Numeral where
  whole : List Char
  fraction : Option (List Char)
  exponent : Option Exponent
  deriving DecidableEq, Repr

namespace Numeral

def text (n : Numeral) : List Char :=
  n.whole ++ (match n.fraction with | some digits => '.' :: digits | none => []) ++
    (match n.exponent with | some e => e.text | none => [])

def value (n : Numeral) : Decimal :=
  let fraction := n.fraction.getD []
  ⟨Decimal.digitsValue ((n.whole ++ fraction).map digitValue),
    (n.exponent.map Exponent.value).getD 0 - fraction.length⟩

def scanExponent (whole : List Char) (fraction : Option (List Char)) (text : List Char) :
    Numeral × List Char :=
  match Exponent.scan? text with
  | some (e, text) => (⟨whole, fraction, some e⟩, text)
  | none => (⟨whole, fraction, none⟩, text)

/-- The longest numeral at the start of a text, and the text behind it. -/
def scan? (text : List Char) : Option (Numeral × List Char) :=
  let whole := text.takeWhile Char.isDigit
  match text.dropWhile Char.isDigit with
  | '.' :: text =>
    let fraction := text.takeWhile Char.isDigit
    if whole.isEmpty && fraction.isEmpty then none
    else some (scanExponent whole (some fraction) (text.dropWhile Char.isDigit))
  | text => if whole.isEmpty then none else some (scanExponent whole none text)

theorem text_scanExponent (whole : List Char) (fraction : Option (List Char)) (text : List Char) :
    (scanExponent whole fraction text).1.text ++ (scanExponent whole fraction text).2 =
      (Numeral.mk whole fraction none).text ++ text := by
  unfold scanExponent
  split
  · rename_i e rest hScan
    simp [Numeral.text, Exponent.eq_of_scan? hScan]
  · rfl

theorem eq_of_scan? {text rest : List Char} {n : Numeral} (h : scan? text = some (n, rest)) :
    text = n.text ++ rest := by
  have hWhole := List.takeWhile_append_dropWhile (p := Char.isDigit) (l := text)
  simp only [scan?] at h
  split at h
  · rename_i after hPoint
    split at h
    · cases h
    · have hPair := Option.some.inj h
      have hText := text_scanExponent (text.takeWhile Char.isDigit)
        (some (after.takeWhile Char.isDigit)) (after.dropWhile Char.isDigit)
      rw [hPair] at hText
      rw [hPoint] at hWhole
      rw [hText]
      simpa [Numeral.text] using hWhole.symm
  · split at h
    · cases h
    · have hPair := Option.some.inj h
      have hText := text_scanExponent (text.takeWhile Char.isDigit) none
        (text.dropWhile Char.isDigit)
      rw [hPair] at hText
      rw [hText]
      simp [Numeral.text]

end Numeral
end Reckon
