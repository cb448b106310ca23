import Mathlib.Computability.Language
import Reckon.Expression.Reader
import Reckon.Proofs.Numeral.Ending
import Reckon.Text.NumberText

/-! # The language of numerals

Numerals are a regular language: digits around at most one point and perhaps an exponent. Scanning takes the
longest member of the language off a text, at any place, and gives back what only began to look like one: an
exponent without digits and a second point.
-/
namespace Reckon.Numeral
set_option autoImplicit false
open scoped Computability

/-- One of the characters. -/
def anyOf (chars : String) : Language Char := {text | ∃ c ∈ chars.toList, text = [c]}

def digit : Language Char := anyOf "0123456789"

/-- One digit or more. -/
def digits : Language Char := digit * digit∗

def mantissas : Language Char := digits * (1 + anyOf ".") * digit∗ + anyOf "." * digits

def exponents : Language Char := anyOf "eE" * (1 + anyOf "+-") * digits

/-- A mantissa, and perhaps an exponent behind it. -/
def literals : Language Char := mantissas * (1 + exponents)

/-! ## Runs of digits -/

variable {c : Char} {text rest : List Char}

theorem mem_optional_iff {l : Language Char} : text ∈ 1 + l ↔ text = [] ∨ text ∈ l := Language.mem_add 1 l text

theorem mem_anyOf_iff {chars : String} : text ∈ anyOf chars ↔ ∃ c ∈ chars.toList, text = [c] := Iff.rfl

theorem mem_ten_iff : c ∈ "0123456789".toList ↔ c.isDigit = true := by
  constructor
  · exact List.all_eq_true.mp (by decide : "0123456789".toList.all Char.isDigit = true) c
  · intro hDigit
    have hCodes : ∀ n < 58, 48 ≤ n → Char.ofNat n ∈ "0123456789".toList := by decide
    obtain ⟨hLow, hHigh⟩ := Char.isDigit_iff_toNat.mp hDigit
    rw [← Char.ofNat_toNat c]
    exact hCodes c.toNat (Nat.lt_succ_of_le hHigh) hLow

theorem mem_digit_iff : text ∈ digit ↔ ∃ c, c.isDigit = true ∧ text = [c] := by
  simp only [digit, mem_anyOf_iff, mem_ten_iff]

theorem mem_digit_kstar_iff : text ∈ digit∗ ↔ ∀ c ∈ text, c.isDigit = true := by
  rw [Language.mem_kstar]
  constructor
  · rintro ⟨parts, rfl, hParts⟩ c hMember
    obtain ⟨part, hPart, hMember⟩ := List.mem_flatten.mp hMember
    obtain ⟨d, hDigit, rfl⟩ := mem_digit_iff.mp (hParts part hPart)
    obtain rfl := List.mem_singleton.mp hMember
    exact hDigit
  · intro hDigits
    refine ⟨text.map fun c => [c], by simp [← List.flatMap_def], ?_⟩
    intro part hPart
    obtain ⟨c, hMember, rfl⟩ := List.mem_map.mp hPart
    exact mem_digit_iff.mpr ⟨c, hDigits c hMember, rfl⟩

theorem mem_digits_iff : text ∈ digits ↔ text ≠ [] ∧ ∀ c ∈ text, c.isDigit = true := by
  rw [digits, Language.mem_mul]
  constructor
  · rintro ⟨first, hFirst, more, hMore, rfl⟩
    obtain ⟨d, hDigit, rfl⟩ := mem_digit_iff.mp hFirst
    exact ⟨List.cons_ne_nil d more, List.forall_mem_cons.mpr ⟨hDigit, mem_digit_kstar_iff.mp hMore⟩⟩
  · rintro ⟨hSome, hDigits⟩
    obtain ⟨d, more, rfl⟩ := List.exists_cons_of_ne_nil hSome
    obtain ⟨hDigit, hMore⟩ := List.forall_mem_cons.mp hDigits
    exact ⟨[d], mem_digit_iff.mpr ⟨d, hDigit, rfl⟩, more, mem_digit_kstar_iff.mpr hMore, rfl⟩

/-! ## Exponents -/

theorem mem_signs_iff : text ∈ 1 + anyOf "+-" ↔
    ∃ sign : Option Char, (sign = none ∨ sign = some '+' ∨ sign = some '-') ∧ sign.toList = text := by
  rw [mem_optional_iff, mem_anyOf_iff]
  constructor
  · rintro (rfl | ⟨c, hMember, rfl⟩)
    · exact ⟨none, .inl rfl, rfl⟩
    · refine ⟨some c, .inr ?_, rfl⟩
      simpa using hMember
  · rintro ⟨sign, rfl | rfl | rfl, rfl⟩
    · exact .inl rfl
    · exact .inr ⟨'+', by simp, rfl⟩
    · exact .inr ⟨'-', by simp, rfl⟩

theorem mem_exponents_iff : text ∈ exponents ↔ ∃ e : Exponent, e.Proper ∧ e.text = text := by
  rw [exponents, Language.mem_mul]
  constructor
  · rintro ⟨front, hFront, digits, hDigits, rfl⟩
    obtain ⟨_, ⟨mark, hMark, rfl⟩, _, hSign, rfl⟩ := Language.mem_mul.mp hFront
    obtain ⟨sign, hSome, rfl⟩ := mem_signs_iff.mp hSign
    obtain ⟨hNonempty, hDigits⟩ := mem_digits_iff.mp hDigits
    exact ⟨⟨mark, sign, digits⟩, ⟨by simpa using hMark, hSome, hDigits, hNonempty⟩, by simp [Exponent.text]⟩
  · rintro ⟨⟨mark, sign, digits⟩, ⟨hMark, hSign, hDigits, hNonempty⟩, rfl⟩
    have hFront : [mark] ++ sign.toList ∈ anyOf "eE" * (1 + anyOf "+-") :=
      Language.append_mem_mul ⟨mark, by simpa using hMark, rfl⟩ (mem_signs_iff.mpr ⟨sign, hSign, rfl⟩)
    exact ⟨_, hFront, digits, mem_digits_iff.mpr ⟨hNonempty, hDigits⟩, by simp [Exponent.text]⟩

/-! ## Numerals -/

theorem mem_point_iff : text ∈ anyOf "." ↔ text = ['.'] := by simp [mem_anyOf_iff]

theorem mem_mantissas_iff : text ∈ mantissas ↔
    ∃ whole fraction, (Numeral.mk whole fraction none).Proper ∧ (Numeral.mk whole fraction none).text = text := by
  rw [mantissas, Language.mem_add]
  constructor
  · rintro (hFirst | hPoint)
    · obtain ⟨front, hFront, digits, hDigits, rfl⟩ := Language.mem_mul.mp hFirst
      obtain ⟨whole, hWhole, point, hPoint, rfl⟩ := Language.mem_mul.mp hFront
      obtain ⟨hSome, hWhole⟩ := mem_digits_iff.mp hWhole
      rw [mem_digit_kstar_iff] at hDigits
      rw [mem_optional_iff, mem_point_iff] at hPoint
      rcases hPoint with rfl | rfl
      · refine ⟨whole ++ digits, none, ⟨?_, by simp, .inl (by simp [hSome]), by simp⟩, by simp [text_mk_none]⟩
        exact List.forall_mem_append.mpr ⟨hWhole, hDigits⟩
      · exact ⟨whole, some digits, ⟨hWhole, hDigits, .inl hSome, by simp⟩, by simp [text_mk_some]⟩
    · obtain ⟨point, hChar, digits, hDigits, rfl⟩ := Language.mem_mul.mp hPoint
      obtain ⟨hSome, hDigits⟩ := mem_digits_iff.mp hDigits
      obtain rfl := mem_point_iff.mp hChar
      exact ⟨[], some digits, ⟨by simp, hDigits, .inr hSome, by simp⟩, text_mk_some [] digits⟩
  · rintro ⟨whole, fraction, hProper, rfl⟩
    have hWhole : ∀ c ∈ whole, c.isDigit = true := hProper.whole
    have hPoint : ['.'] ∈ anyOf "." := mem_point_iff.mpr rfl
    cases fraction with
    | none =>
      left
      have hDigits := mem_digits_iff.mpr ⟨hProper.nonempty.resolve_right (by simp), hWhole⟩
      have hNothing : [] ∈ 1 + anyOf "." := mem_optional_iff.mpr (.inl rfl)
      have hFront := Language.append_mem_mul hDigits hNothing
      exact ⟨_, hFront, [], Language.nil_mem_kstar digit, by simp [text_mk_none]⟩
    | some fraction =>
      have hFraction : ∀ c ∈ fraction, c.isDigit = true := hProper.fraction
      rw [text_mk_some]
      by_cases hSome : whole = []
      · right
        have hDigits := mem_digits_iff.mpr ⟨hProper.nonempty.resolve_left (by simpa using hSome), hFraction⟩
        rw [hSome]
        exact ⟨_, hPoint, _, hDigits, rfl⟩
      · left
        have hDigits := mem_digits_iff.mpr ⟨hSome, hWhole⟩
        have hPart : ['.'] ∈ 1 + anyOf "." := mem_optional_iff.mpr (.inr hPoint)
        have hFront := Language.append_mem_mul hDigits hPart
        exact ⟨_, hFront, fraction, mem_digit_kstar_iff.mpr hFraction, by simp⟩

/-- The language consists of the texts of proper numerals. -/
theorem mem_literals_iff : text ∈ literals ↔ ∃ n : Numeral, n.Proper ∧ n.text = text := by
  rw [literals, Language.mem_mul]
  constructor
  · rintro ⟨mantissa, hMantissa, exponent, hExponent, rfl⟩
    obtain ⟨whole, fraction, hProper, rfl⟩ := mem_mantissas_iff.mp hMantissa
    rw [mem_optional_iff, mem_exponents_iff] at hExponent
    rcases hExponent with rfl | ⟨e, hProper', rfl⟩
    · exact ⟨_, hProper, (List.append_nil _).symm⟩
    · refine ⟨⟨whole, fraction, some e⟩, ⟨hProper.whole, hProper.fraction, hProper.nonempty, ?_⟩, ?_⟩
      · rintro e' ⟨⟩
        exact hProper'
      · exact text_mk_exponent whole fraction e
  · rintro ⟨⟨whole, fraction, exponent⟩, hProper, rfl⟩
    have hMantissa : (Numeral.mk whole fraction none).text ∈ mantissas :=
      mem_mantissas_iff.mpr ⟨whole, fraction, ⟨hProper.whole, hProper.fraction, hProper.nonempty, by simp⟩, rfl⟩
    cases exponent with
    | none => exact ⟨_, hMantissa, [], mem_optional_iff.mpr (.inl rfl), List.append_nil _⟩
    | some e =>
      have hExponent : e.text ∈ exponents := mem_exponents_iff.mpr ⟨e, hProper.exponent e rfl, rfl⟩
      exact ⟨_, hMantissa, e.text, mem_optional_iff.mpr (.inr hExponent), (text_mk_exponent whole fraction e).symm⟩

/-! ## Reading a numeral as a number -/

theorem writes_iff : writes c = true ↔ c ∈ "0123456789.eE+-".toList := by
  simp only [writes, continues, ← mem_ten_iff, Bool.or_eq_true, beq_iff_eq]
  simp [or_assoc]

theorem dropUnderscores_of_forall {before : Char} (hBefore : before ≠ '_') (h : ∀ c ∈ text, c ≠ '_') :
    Text.dropUnderscores before text = some text := by
  induction text generalizing before with
  | nil => simp [Text.dropUnderscores, hBefore]
  | cons c text ih =>
    obtain ⟨hHead, hTail⟩ := List.forall_mem_cons.mp h
    simp [Text.dropUnderscores, hHead, hBefore, ih hHead hTail]

theorem strip_of_forall {blank : Char → Bool} (h : ∀ c ∈ text, blank c = false) :
    Text.strip blank text = text := by
  have hDrop {l : List Char} (hl : ∀ c ∈ l, blank c = false) : l.dropWhile blank = l :=
    List.dropWhile_eq_self_iff.mpr fun hLength => by simp [hl _ (List.getElem_mem hLength)]
  rw [Text.strip, hDrop h, hDrop (by simpa using h), List.reverse_reverse]

theorem Proper.all_text {n : Numeral} (h : n.Proper) {p : Char → Bool}
    (hAll : "0123456789.eE+-".toList.all p = true) : ∀ c ∈ n.text, p c = true :=
  fun c hMember => List.all_eq_true.mp hAll c (writes_iff.mp (h.writes c hMember))

/-- A number's text is a proper numeral's, read whole. -/
theorem Proper.float?_text {n : Numeral} (h : n.Proper) :
    Text.float? (String.ofList n.text) = some n.value.toFloat := by
  have hPlain : n.text.map Text.plain = n.text := by
    have hSame : ∀ c ∈ n.text, (Text.plain c == c) = true := h.all_text (by decide)
    rw [List.map_congr_left fun c hMember => eq_of_beq (hSame c hMember), List.map_id']
  have hStrip : Text.strip Text.isPlainBlank n.text = n.text := by
    have hSolid : ∀ c ∈ n.text, (!Text.isPlainBlank c) = true := h.all_text (by decide)
    exact strip_of_forall fun c hMember => by simpa using hSolid c hMember
  have hUnderscores : Text.dropUnderscores ' ' n.text = some n.text := by
    have hNone : ∀ c ∈ n.text, (c != '_') = true := h.all_text (by decide)
    exact dropUnderscores_of_forall (by decide) fun c hMember => ne_of_beq_false (by simpa using hNone c hMember)
  obtain ⟨first, more, hText, hFirst⟩ := head_text_of_proper h
  have hSign : Text.takeSign n.text = (false, n.text) := by
    rw [hText]
    unfold Text.takeSign
    split
    · rename_i hMinus
      obtain rfl := (List.cons.inj hMinus).1
      simp at hFirst
    · rename_i hPlus
      obtain rfl := (List.cons.inj hPlus).1
      simp at hFirst
    · rfl
  have hWord : ∀ word ∈ ["inf", "infinity", "nan"], String.ofList (n.text.map Char.toLower) ≠ word := by
    have hLower : ∀ c ∈ n.text, (c.toLower != 'i' && c.toLower != 'n') = true := h.all_text (by decide)
    obtain ⟨hInf, hNan⟩ : first.toLower ≠ 'i' ∧ first.toLower ≠ 'n' := by
      simpa using hLower first (by simp [hText])
    intro word hMember hWord
    have hHead := congrArg (fun w => w.toList.head?) hWord
    simp only [hText, List.map_cons, String.toList_ofList, List.head?_cons] at hHead
    simp only [List.mem_cons, List.not_mem_nil, or_false] at hMember
    rcases hMember with rfl | rfl | rfl
    · exact hInf (Option.some.inj hHead)
    · exact hInf (Option.some.inj hHead)
    · exact hNan (Option.some.inj hHead)
  simp only [List.forall_mem_cons, List.not_mem_nil, false_implies, implies_true, and_true] at hWord
  simp [Text.float?, hPlain, hStrip, hUnderscores, hSign, hWord, scan?_text h]

/-! ## The longest member -/

/-- Of all members of a language at the start of a text, none is longer. -/
def LongestIn (l : Language Char) (found text : List Char) : Prop :=
  found ∈ l ∧ found <+: text ∧ ∀ other ∈ l, other <+: text → other.length ≤ found.length

theorem Longest.longestIn {n : Numeral} (h : n.Longest text) : LongestIn literals n.text text := by
  obtain ⟨hProper, hPrefix, hMost⟩ := h
  refine ⟨mem_literals_iff.mpr ⟨n, hProper, rfl⟩, hPrefix, ?_⟩
  intro other hOther hPrefix'
  obtain ⟨m, hProper', rfl⟩ := mem_literals_iff.mp hOther
  exact hMost m hProper' hPrefix'

theorem scan?_eq_none_iff_literals :
    scan? text = none ↔ ∀ l, l ≠ [] → l <+: text → l ∉ literals := by
  rw [scan?_eq_none_iff]
  constructor
  · intro hNone l _ hPrefix hMember
    obtain ⟨n, hProper, rfl⟩ := mem_literals_iff.mp hMember
    exact hNone n hProper hPrefix
  · intro hNone n hProper hPrefix
    have hNonempty : n.text ≠ [] := List.ne_nil_of_length_pos (length_pos_of_proper hProper)
    exact hNone n.text hNonempty hPrefix (mem_literals_iff.mpr ⟨n, hProper, rfl⟩)

theorem scanExponent?_eq_none_of_exponents (h : ∀ e ∈ exponents, ¬ e <+: text) : Exponent.scan? text = none := by
  cases hScan : Exponent.scan? text with
  | none => rfl
  | some found =>
    obtain ⟨e, rest⟩ := found
    have hMember : e.text ∈ exponents := mem_exponents_iff.mpr ⟨e, Exponent.proper_of_scan? hScan, rfl⟩
    exact absurd ⟨rest, (Exponent.eq_of_scan? hScan).symm⟩ (h e.text hMember)

/-- A mark behind a mantissa is left if no exponent begins there. -/
theorem scan?_before_mark {mark : Char} (hMantissa : text ∈ mantissas) (hMark : mark = 'e' ∨ mark = 'E')
    (hExponent : ∀ e ∈ exponents, ¬ e <+: mark :: rest) :
    ∃ n : Numeral, n.text = text ∧ scan? (text ++ mark :: rest) = some (n, mark :: rest) := by
  obtain ⟨whole, fraction, hProper, rfl⟩ := mem_mantissas_iff.mp hMantissa
  refine ⟨_, rfl, scan?_of_apart hProper ⟨?_, ?_, ?_⟩⟩
  · rintro _ ⟨⟩
    rcases hMark with rfl | rfl <;> rfl
  · rintro - - _ ⟨⟩
    rcases hMark with rfl | rfl <;> decide
  · exact fun _ => scanExponent?_eq_none_of_exponents hExponent

/-- A point is left behind a numeral that has a point or an exponent. -/
theorem scan?_before_point (hLiteral : text ∈ literals) (hMore : '.' ∈ text ∨ 'e' ∈ text ∨ 'E' ∈ text) :
    ∃ n : Numeral, n.text = text ∧ scan? (text ++ '.' :: rest) = some (n, '.' :: rest) := by
  obtain ⟨n, hProper, rfl⟩ := mem_literals_iff.mp hLiteral
  refine ⟨n, rfl, scan?_of_apart hProper ⟨?_, ?_, ?_⟩⟩
  · rintro _ ⟨⟩
    rfl
  · intro hFraction hExponent
    have hDigits : ∀ c ∈ n.text, c.isDigit = true := by
      simpa [Numeral.text, hFraction, hExponent] using hProper.whole
    rcases hMore with hMember | hMember | hMember
    · cases hDigits _ hMember
    · cases hDigits _ hMember
    · cases hDigits _ hMember
  · rintro -
    exact Exponent.scan?_of_head (by simp)

/-- At any place of a text, the longest member of the language is taken, the text goes on right behind it, and it
    reads as a number. If there is none, nothing is taken. Neither an exponent without digits nor a second point
    is. -/
theorem scan?_takes_longest_literal (text : List Char) (p : Nat) :
    (∀ n rest, scan? (text.drop p) = some (n, rest) →
      LongestIn literals n.text (text.drop p) ∧ rest = text.drop (p + n.text.length) ∧
      Expression.numeral ⟨p, text.drop p⟩ =
        ⟨[⟨.literal n.value, p + n.text.length, p + n.text.length⟩],
          .ok ⟨p + n.text.length, text.drop (p + n.text.length)⟩⟩ ∧
      (∀ c ∈ n.text, c ∈ "0123456789.eE+-".toList) ∧
      Text.float? (String.ofList n.text) = some n.value.toFloat) ∧
    (scan? (text.drop p) = none ↔ ∀ l, l ≠ [] → l <+: text.drop p → l ∉ literals) ∧
    (scan? (text.drop p) = none →
      Expression.numeral ⟨p, text.drop p⟩ = Expression.Reading.fail ⟨.lonePoint, p, p⟩) ∧
    (∀ m ∈ mantissas, ∀ mark tail, mark = 'e' ∨ mark = 'E' → text.drop p = m ++ mark :: tail →
      (∀ e ∈ exponents, ¬ e <+: mark :: tail) →
      ∃ n : Numeral, n.text = m ∧ scan? (text.drop p) = some (n, mark :: tail)) ∧
    (∀ l ∈ literals, ∀ tail, '.' ∈ l ∨ 'e' ∈ l ∨ 'E' ∈ l → text.drop p = l ++ '.' :: tail →
      ∃ n : Numeral, n.text = l ∧ scan? (text.drop p) = some (n, '.' :: tail)) := by
  refine ⟨?taken, scan?_eq_none_iff_literals, ?nothing, ?mark, ?point⟩
  case taken =>
    intro n rest hScan
    have hLongest := longest_of_scan? hScan
    have hRest : rest = text.drop (p + n.text.length) := by
      rw [← List.drop_drop, eq_of_scan? hScan, List.drop_left]
    refine ⟨hLongest.longestIn, hRest, ?_, ?_, hLongest.1.float?_text⟩
    · simp [Expression.numeral, hScan, Expression.Reading.bind_of_ok, Expression.Cursor.emit,
        Expression.Cursor.advance, Expression.Reading.emit]
    · exact fun c hMember => writes_iff.mp (hLongest.1.writes c hMember)
  case nothing =>
    intro hScan
    simp [Expression.numeral, hScan, Expression.Cursor.fail]
  case mark =>
    intro m hMantissa mark tail hMark hText hExponent
    rw [hText]
    exact scan?_before_mark hMantissa hMark hExponent
  case point =>
    intro l hLiteral tail hMore hText
    rw [hText]
    exact scan?_before_point hLiteral hMore

theorem scan?_takes_longest_literal_in_sum :
    scan? ("7+1.e-x".toList.drop 2) = some (⟨['1'], some [], none⟩, "e-x".toList) ∧
      LongestIn literals "1.".toList "1.e-x".toList ∧ Text.float? "1." = some (Decimal.mk 1 0).toFloat := by
  have hScan : scan? ("7+1.e-x".toList.drop 2) = some (⟨['1'], some [], none⟩, "e-x".toList) := by decide
  obtain ⟨hLongest, -, -, -, hFloat⟩ := (scan?_takes_longest_literal "7+1.e-x".toList 2).1 _ _ hScan
  exact ⟨hScan, hLongest, hFloat⟩

end Reckon.Numeral
