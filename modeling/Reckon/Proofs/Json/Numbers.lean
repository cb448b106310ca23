import Reckon.Proofs.Binary64.Parts
import Reckon.Proofs.Decimal.Numeral
import Reckon.Proofs.Json.Texts
import Reckon.Proofs.Numeral.Ending
import Reckon.Record

/-! # Numbers are read as they were written

The fewest digits that read back are written as a numeral that JSON has, so a finite number comes back with its
sign, also if it is a zero. What is not finite comes back from its word.
-/
namespace Reckon.Json
set_option autoImplicit false
open Reader

/-! ## Numerals under a sign -/

/-- No numeral goes on with the first character. -/
def Stops (rest : List Char) : Prop := ∀ next ∈ rest.head?, Numeral.continues next = false

def signedText (minus : Bool) (n : Numeral) : List Char := if minus then '-' :: n.text else n.text

/-- A numeral that JSON has. -/
structure Allowed (n : Numeral) : Prop where
  proper : n.Proper
  allows : Reader.allows n = true

section Allowed

variable {n : Numeral} {rest : List Char}

theorem Allowed.magnitude? (h : Allowed n) (hRest : Stops rest) :
    Reader.magnitude? (n.text ++ rest) = some (n.value, rest) := by
  rw [Reader.magnitude?, Numeral.scan?_text_append h.proper hRest, Option.bind_eq_bind, Option.bind_some]
  exact if_pos h.allows

theorem Allowed.exists_digit (h : Allowed n) : ∃ d more, n.text = d :: more ∧ d.isDigit = true := by
  obtain ⟨whole, fraction, exponent⟩ := n
  cases whole with
  | nil => cases h.allows
  | cons d whole => exact ⟨d, _, rfl, h.proper.whole d List.mem_cons_self⟩

theorem isAscii_of_writes {c : Char} (h : Numeral.writes c = true) : isAscii c = true := by
  simp only [Numeral.writes, Numeral.continues, Bool.or_eq_true, beq_iff_eq] at h
  rcases h with ((((hDigit | rfl) | rfl) | rfl) | rfl) | rfl
  · obtain ⟨-, hMost⟩ := Char.isDigit_iff_toNat.mp hDigit
    exact decide_eq_true (hMost.trans_lt (by decide))
  all_goals rfl

theorem Allowed.ascii (h : Allowed n) (minus : Bool) : (signedText minus n).all isAscii = true := by
  have hText : n.text.all isAscii = true :=
    List.all_eq_true.mpr fun c hMember => isAscii_of_writes (h.proper.writes c hMember)
  cases minus with
  | false => exact hText
  | true => exact hText

/-- A digit is neither a blank nor a mark that other values start with. -/
theorem value?_digit {d : Char} (h : d.isDigit = true) (bound : Nat) (input : List Char) :
    value? (bound + 1) (d :: input) =
      (Reader.magnitude? (d :: input)).map fun (m, rest) => (.number false m, rest) := by
  have hNot {c : Char} (hOther : c.isDigit = false) : d ≠ c := by
    rintro rfl
    rw [hOther] at h
    cases h
  have hBlank : isBlank d = false := by
    simp [isBlank, hNot (c := ' ') rfl, hNot (c := '\n') rfl, hNot (c := '\r') rfl, hNot (c := '\t') rfl]
  have hSkip : skip (d :: input) = d :: input := List.dropWhile_cons_of_neg (by simp [hBlank])
  rw [value?, hSkip]
  dsimp only
  rw [if_neg (hNot rfl), if_neg (hNot rfl), if_neg (hNot rfl), if_neg (hNot rfl), if_pos h]

theorem Allowed.value? (h : Allowed n) (hRest : Stops rest) (minus : Bool) (bound : Nat) :
    Reader.value? (bound + 1) (signedText minus n ++ rest) = some (.number minus n.value, rest) := by
  have hMagnitude := h.magnitude? hRest
  cases minus with
  | false =>
    obtain ⟨d, more, hText, hDigit⟩ := h.exists_digit
    change Reader.value? (bound + 1) (n.text ++ rest) = _
    rw [hText] at hMagnitude ⊢
    rw [List.cons_append] at hMagnitude ⊢
    rw [value?_digit hDigit, hMagnitude]
    rfl
  | true =>
    change (Reader.magnitude? (n.text ++ rest)).map _ = _
    rw [hMagnitude]
    rfl

end Allowed

/-! ## Integers -/

def integerNumeral (n : Nat) : Numeral := ⟨Nat.toDigits 10 n, none, none⟩

theorem allowed_integerNumeral (n : Nat) : Allowed (integerNumeral n) where
  proper := ⟨fun c => Nat.isDigit_of_mem_toDigits (by decide) (by decide), by simp [integerNumeral],
    .inl Nat.toDigits_ne_nil, by simp [integerNumeral]⟩
  allows := by
    have hNonempty : (Nat.toDigits 10 n).isEmpty = false := by simp [Nat.toDigits_ne_nil]
    rw [allows, integerNumeral]
    simp only [hNonempty]
    rcases Nat.eq_zero_or_pos n with rfl | hPos
    · rfl
    · have hHead : (Nat.toDigits 10 n).head? ≠ some '0' :=
        fun hZero => Numeral.head_toDigits hPos '0' hZero rfl
      simp [hHead]

theorem value_integerNumeral (n : Nat) : (integerNumeral n).value = ⟨n, 0⟩ := by
  have hDigits : Numeral.number (Nat.toDigits 10 n ++ []) = n := by
    rw [List.append_nil, Numeral.number_toDigits]
  exact congrArg (Decimal.mk · 0) hDigits

theorem toString_eq_signedText (n : Int) :
    (toString n).toList = signedText (n < 0) (integerNumeral n.natAbs) := by
  rw [signedText, integerNumeral, Numeral.text_mk_none, Int.toString_eq_repr]
  cases n with
  | ofNat n =>
    rw [if_neg (by simp)]
    exact String.toList_ofList
  | negSucc n =>
    rw [if_pos (by simp)]
    simp [Int.repr]

/-! ## Numbers with a point -/

theorem allowed_numeral {d : Decimal} (h : 0 < d.coefficient) : Allowed d.numeral where
  proper := Decimal.proper_numeral h
  allows := by
    obtain ⟨⟨-, hNonempty, hHead⟩, -⟩ := Decimal.exists_significant h
    obtain ⟨first, more, hDigits⟩ := List.exists_cons_of_ne_nil hNonempty
    have hFirst : first ≠ '0' := hHead first (by rw [hDigits]; rfl)
    rw [Decimal.numeral, hDigits]
    split_ifs with hRange hSmall hShort hOne
    · simp [allows]
    · simp [allows, hFirst]
    · obtain ⟨place, hPlace⟩ := Nat.exists_eq_succ_of_ne_zero (n := d.decade.toNat) (by omega)
      have hBehind : more.drop place ≠ [] := by
        rw [Ne, List.drop_eq_nil_iff]
        rw [hPlace, List.length_cons] at hShort
        omega
      rw [hPlace]
      simp [allows, hFirst, hBehind]
    · simp [allows]
    · have hBehind : more ≠ [] := by
        rintro rfl
        exact hOne (Nat.le_refl 1)
      simp [allows, hBehind]

/-- The numeral of a finite number. -/
def numeral (x : Float) : Numeral :=
  if x == 0 then ⟨['0'], some ['0'], none⟩ else (Decimal.shortest x).numeral

section Finite

open Binary64

variable {x : Float}

theorem numeral_zero (minus : Bool) : numeral (zero minus) = ⟨['0'], some ['0'], none⟩ := by
  cases minus <;> rfl

theorem numeral_ordinary (h : Ordinary x) : numeral x = (Decimal.shortest x).numeral := by
  rw [numeral, h.beq_zero]
  rfl

theorem allowed_numeral_finite (h : x.isFinite = true) : Allowed (numeral x) := by
  rcases zero_or_ordinary h with hZero | hOrdinary
  · have hDigit : ∀ d ∈ ['0'], d.isDigit = true := by simp
    rw [hZero, numeral_zero]
    exact ⟨⟨hDigit, hDigit, .inl (List.cons_ne_nil _ _), by simp⟩, rfl⟩
  · rw [numeral_ordinary hOrdinary]
    exact allowed_numeral (Decimal.coefficient_shortest_pos hOrdinary)

/-- A finite number is written as its numeral under its sign. -/
theorem exact_eq_signedText (h : x.isFinite = true) :
    (Decimal.exact x).toList = signedText (negative x) (numeral x) := by
  have hBody : (if x == 0 then ['0', '.', '0'] else Decimal.adaptive 16 ['.', '0'] (Decimal.shortest x)) =
      (numeral x).text := by
    rcases zero_or_ordinary h with hZero | hOrdinary
    · rw [hZero, numeral_zero]
      cases negative x <;> rfl
    · rw [numeral_ordinary hOrdinary, hOrdinary.beq_zero]
      exact Decimal.adaptive_eq_text (Decimal.coefficient_shortest_pos hOrdinary)
  rw [Decimal.exact, Decimal.toList_signed _ _ h, hBody, signedText]
  cases negative x <;> rfl

/-- The numeral of a finite number is read as the number. -/
theorem float?_numeral (h : x.isFinite = true) :
    (Value.number (negative x) (numeral x).value).float? = some x := by
  change some (withSign (negative x) (numeral x).value.toFloat) = some x
  rcases zero_or_ordinary h with hZero | hOrdinary
  · obtain ⟨minus, rfl⟩ : ∃ minus, x = zero minus := ⟨_, hZero⟩
    rw [numeral_zero, negative_zero]
    exact congrArg some (withSign_zero minus)
  · obtain ⟨m, e, hPos, hUnpack⟩ := hOrdinary
    have hOrdinary : Ordinary x := ⟨m, e, hPos, hUnpack⟩
    rw [numeral_ordinary hOrdinary,
      Decimal.toFloat_congr (Decimal.value_numeral (Decimal.coefficient_shortest_pos hOrdinary)),
      Decimal.toFloat_shortest hUnpack, withSign_abs hOrdinary]

end Finite

/-! ## Words -/

/-- What is not finite is read from its word. -/
theorem float?_word {x : Float} (h : x.isFinite = false) : (Value.text (Decimal.exact x)).float? = some x := by
  rcases Binary64.eq_of_not_finite h with rfl | rfl | rfl
  · rfl
  · rfl
  · rfl

end Reckon.Json
