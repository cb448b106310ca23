import Reckon.Proofs.Numeral.Longest

/-! # How far scanning looks ahead

Whether a mark, a sign and a digit follow decides whether a numeral goes on, so scanning looks at most
three characters beyond the numeral that it finds. Texts that agree so far have the same numeral.
-/
namespace Reckon
set_option autoImplicit false

/-! ## Lists that agree at their beginning -/

section Agreement

variable {α : Type} {l l' : List α} {k : Nat}

theorem take_drop_eq_of_take_eq (h : l.take k = l'.take k) (n : Nat) :
    (l.drop n).take (k - n) = (l'.drop n).take (k - n) := by
  rw [← List.drop_take, ← List.drop_take, h]

/-- Lists that agree at their beginning both end at once, or go on alike. -/
theorem cases_of_take_eq (h : l.take (k + 1) = l'.take (k + 1)) :
    l = [] ∧ l' = [] ∨ ∃ x rest rest', l = x :: rest ∧ l' = x :: rest' ∧ rest.take k = rest'.take k := by
  cases l with
  | nil =>
    cases l' with
    | nil => exact .inl ⟨rfl, rfl⟩
    | cons y rest' => cases h
  | cons x rest =>
    cases l' with
    | nil => cases h
    | cons y rest' =>
      simp only [List.take_succ_cons, List.cons.injEq] at h
      obtain ⟨rfl, h⟩ := h
      exact .inr ⟨x, rest, rest', rfl, rfl, h⟩

theorem takeWhile_eq_of_take_eq {p : α → Bool} (h : l.take k = l'.take k)
    (hLength : (l.takeWhile p).length < k) : l'.takeWhile p = l.takeWhile p := by
  induction k generalizing l l' with
  | zero => cases hLength
  | succ k ih =>
    rcases cases_of_take_eq h with ⟨rfl, rfl⟩ | ⟨x, rest, rest', rfl, rfl, hRest⟩
    · rfl
    · rw [List.takeWhile_cons] at hLength
      rw [List.takeWhile_cons, List.takeWhile_cons]
      split
      · rename_i hHead
        rw [if_pos hHead, List.length_cons] at hLength
        rw [ih hRest (by omega)]
      · rfl

theorem take_dropWhile_eq_of_take_eq {p : α → Bool} (h : l.take k = l'.take k)
    (hLength : (l.takeWhile p).length < k) :
    (l.dropWhile p).take (k - (l.takeWhile p).length) =
      (l'.dropWhile p).take (k - (l.takeWhile p).length) := by
  rw [dropWhile_eq_drop, dropWhile_eq_drop, takeWhile_eq_of_take_eq h hLength]
  exact take_drop_eq_of_take_eq h _

end Agreement

/-! ## Exponents -/

namespace Exponent

variable {text text' : List Char} {k : Nat}

theorem takeSign_of_take_eq (h : text.take (k + 1) = text'.take (k + 1)) :
    (takeSign text').1 = (takeSign text).1 ∧
      (takeSign text).2.take (k + 1 - (takeSign text).1.toList.length) =
        (takeSign text').2.take (k + 1 - (takeSign text).1.toList.length) := by
  have hSign := h
  rcases cases_of_take_eq h with ⟨rfl, rfl⟩ | ⟨x, rest, rest', rfl, rfl, hRest⟩
  · exact ⟨rfl, rfl⟩
  · by_cases hPlus : x = '+'
    · subst hPlus
      exact ⟨rfl, hRest⟩
    · by_cases hMinus : x = '-'
      · subst hMinus
        exact ⟨rfl, hRest⟩
      · have hNone (rest : List Char) : takeSign (x :: rest) = (none, x :: rest) := by
          unfold takeSign
          split <;> simp_all
        rw [hNone, hNone]
        exact ⟨rfl, hSign⟩

theorem scan?_of_take_eq (h : text.take k = text'.take k) (hMore : 3 ≤ k)
    (hLength : ∀ e, (scan? text).map Prod.fst = some e → e.text.length + 3 ≤ k) :
    (scan? text').map Prod.fst = (scan? text).map Prod.fst := by
  obtain ⟨k, rfl⟩ : ∃ j, k = j + 2 := ⟨k - 2, by omega⟩
  rcases cases_of_take_eq h with ⟨rfl, rfl⟩ | ⟨mark, rest, rest', rfl, rfl, hRest⟩
  · rfl
  · simp only [scan?] at hLength ⊢
    split
    · rename_i hMark
      rw [if_pos hMark] at hLength
      obtain ⟨hSign, hAfter⟩ := takeSign_of_take_eq hRest
      have hOne : (takeSign rest).1.toList.length ≤ 1 := by
        cases (takeSign rest).1 <;> simp
      have hDigits : (takeSign rest').2.takeWhile Char.isDigit =
          (takeSign rest).2.takeWhile Char.isDigit := by
        apply takeWhile_eq_of_take_eq hAfter
        split at hLength
        · rename_i hNil
          rw [hNil, List.length_nil]
          omega
        · have hBound := hLength _ rfl
          simp only [Exponent.text, List.length_cons, List.length_append] at hBound
          omega
      rw [hSign, hDigits]
      split <;> rfl
    · rfl

end Exponent

/-! ## Numerals -/

namespace Numeral

variable {text text' : List Char} {k : Nat}

theorem scanExponent_of_take_eq {whole : List Char} {fraction : Option (List Char)}
    (h : text.take k = text'.take k)
    (hLength : (scanExponent whole fraction text).1.text.length + 3 ≤
      (Numeral.mk whole fraction none).text.length + k) :
    (scanExponent whole fraction text').1 = (scanExponent whole fraction text).1 := by
  have hPlain := length_text_scanExponent whole fraction text
  have hScan := Exponent.scan?_of_take_eq h (by omega) (by
    intro e hExponent
    obtain ⟨⟨e, rest⟩, hScan, rfl⟩ := Option.map_eq_some_iff.mp hExponent
    rw [scanExponent, hScan] at hLength
    rw [text_mk_exponent, List.length_append] at hLength
    dsimp only at hLength ⊢
    omega)
  have hFirst (text : List Char) : (scanExponent whole fraction text).1 =
      ⟨whole, fraction, (Exponent.scan? text).map Prod.fst⟩ := by
    unfold scanExponent
    cases Exponent.scan? text <;> rfl
  rw [hFirst, hFirst, hScan]

theorem scan?_eq_none_of_take_eq (h : text.take k = text'.take k) (hMore : 2 ≤ k)
    (hScan : scan? text = none) : scan? text' = none := by
  obtain ⟨k, rfl⟩ : ∃ j, k = j + 2 := ⟨k - 2, by omega⟩
  obtain ⟨hDigit, hPoint⟩ := scan?_eq_none_iff_head.mp hScan
  refine scan?_eq_none_iff_head.mpr ⟨?_, ?_⟩
  · rw [takeWhile_eq_of_take_eq h (by simp [hDigit]), hDigit]
  · rintro rest' rfl
    rcases cases_of_take_eq h with ⟨-, hNil⟩ | ⟨next, rest, rest'', rfl, hNext, hRest⟩
    · cases hNil
    · cases hNext
      have hFraction := hPoint rest rfl
      rw [takeWhile_eq_of_take_eq hRest (by simp [hFraction]), hFraction]

theorem length_takeWhile_le_of_scan? {n : Numeral} {rest : List Char}
    (h : scan? text = some (n, rest)) : (text.takeWhile Char.isDigit).length ≤ n.text.length := by
  by_cases hDigits : text.takeWhile Char.isDigit = []
  · simp [hDigits]
  · obtain ⟨found, hFound, hBound⟩ := exists_scan?_of_digits text hDigits
    rw [h] at hFound
    cases hFound
    exact hBound

theorem scan?_point_of_take_eq {whole : List Char} (hDigits : ∀ d ∈ whole, d.isDigit = true)
    (h : text.take k = text'.take k)
    (hNonempty : whole ≠ [] ∨ text.takeWhile Char.isDigit ≠ []) {n : Numeral} {rest : List Char}
    (hScan : scan? (whole ++ '.' :: text) = some (n, rest))
    (hLength : n.text.length + 3 ≤ whole.length + 1 + k) :
    (scan? (whole ++ '.' :: text')).map Prod.fst = some n := by
  rw [scan?_point hDigits text hNonempty] at hScan
  have hFirst := congrArg Prod.fst (Option.some.inj hScan)
  dsimp only at hFirst
  have hPlain := length_text_scanExponent whole (some (text.takeWhile Char.isDigit))
    (text.dropWhile Char.isDigit)
  rw [hFirst, text_mk_some, List.length_append, List.length_cons] at hPlain
  have hRun := takeWhile_eq_of_take_eq (p := Char.isDigit) h (by omega)
  have hMore := take_dropWhile_eq_of_take_eq (p := Char.isDigit) h (by omega)
  rw [scan?_point hDigits text' (by rwa [hRun]), hRun, Option.map_some,
    scanExponent_of_take_eq hMore, hFirst]
  rw [hFirst, text_mk_some, List.length_append, List.length_cons]
  omega

theorem scan?_plain_of_take_eq {whole : List Char} (hDigits : ∀ d ∈ whole, d.isDigit = true)
    (hWhole : whole ≠ []) (h : text.take (k + 1) = text'.take (k + 1))
    (hHead : ∀ c ∈ text.head?, c.isDigit = false) (hPoint : ∀ c ∈ text.head?, c ≠ '.') {n : Numeral}
    {rest : List Char} (hScan : scan? (whole ++ text) = some (n, rest))
    (hLength : n.text.length + 3 ≤ whole.length + (k + 1)) :
    (scan? (whole ++ text')).map Prod.fst = some n := by
  have hSame : text'.head? = text.head? := by
    rcases cases_of_take_eq h with ⟨rfl, rfl⟩ | ⟨next, rest, rest', rfl, rfl, -⟩ <;> rfl
  rw [scan?_plain hDigits hWhole hHead hPoint] at hScan
  have hFirst := congrArg Prod.fst (Option.some.inj hScan)
  dsimp only at hFirst
  rw [scan?_plain hDigits hWhole (by rwa [hSame]) (by rwa [hSame]), Option.map_some,
    scanExponent_of_take_eq h, hFirst]
  rw [hFirst, text_mk_none]
  omega

/-- The numeral at the start of a text is that of every text that agrees with it on the numeral and
    three characters more. -/
theorem scan?_eq_some_of_take_eq {n : Numeral} {rest : List Char} (h : text.take k = text'.take k)
    (hScan : scan? text = some (n, rest)) (hLength : n.text.length + 3 ≤ k) :
    (scan? text').map Prod.fst = some n := by
  have hBound := length_takeWhile_le_of_scan? hScan
  have hWhole' := takeWhile_eq_of_take_eq (p := Char.isDigit) h (by omega)
  have hRest := take_dropWhile_eq_of_take_eq (p := Char.isDigit) h (by omega)
  have hText := List.takeWhile_append_dropWhile (p := Char.isDigit) (l := text)
  have hText' := List.takeWhile_append_dropWhile (p := Char.isDigit) (l := text')
  have hDigits : ∀ d ∈ text.takeWhile Char.isDigit, d.isDigit = true := fun d => List.mem_takeWhile_imp
  have hHead : ∀ c ∈ (text.dropWhile Char.isDigit).head?, c.isDigit = false := by
    intro c hc
    have hNot := List.head?_dropWhile_not Char.isDigit text
    rw [Option.mem_def.mp hc] at hNot
    simpa using hNot
  have hNone : (∀ rest, text.dropWhile Char.isDigit = '.' :: rest → rest.takeWhile Char.isDigit = []) →
      text.takeWhile Char.isDigit ≠ [] := by
    rintro hPoint hNil
    rw [dropWhile_eq_drop, hNil] at hPoint
    rw [scan?_eq_none_iff_head.mpr ⟨hNil, hPoint⟩] at hScan
    cases hScan
  obtain ⟨j, hj⟩ : ∃ j, k - (text.takeWhile Char.isDigit).length = j + 1 :=
    ⟨k - (text.takeWhile Char.isDigit).length - 1, by omega⟩
  rw [hWhole'] at hText'
  rw [hj] at hRest
  rw [← hText] at hScan
  rw [← hText']
  by_cases hPoint : ∃ fraction, text.dropWhile Char.isDigit = '.' :: fraction
  · obtain ⟨fraction, hFraction⟩ := hPoint
    rcases cases_of_take_eq hRest with ⟨hNil, -⟩ | ⟨next, after, fraction', hNext, hNext', hAfter⟩
    · rw [hFraction] at hNil
      cases hNil
    · obtain ⟨rfl, rfl⟩ := List.cons.inj (hFraction.symm.trans hNext)
      rw [hFraction] at hScan
      rw [hNext']
      have hNonempty : text.takeWhile Char.isDigit ≠ [] ∨ fraction.takeWhile Char.isDigit ≠ [] := by
        by_contra hEmpty
        rw [not_or, not_not, not_not] at hEmpty
        exact hNone (by rintro rest hRest; rw [hFraction] at hRest; cases hRest; exact hEmpty.2) hEmpty.1
      exact scan?_point_of_take_eq hDigits hAfter hNonempty hScan (by omega)
  · have hNoPoint : ∀ c ∈ (text.dropWhile Char.isDigit).head?, c ≠ '.' := by
      rintro c hc rfl
      exact hPoint (List.head?_eq_some_iff.mp hc)
    have hNonempty := hNone fun rest hRest => absurd ⟨rest, hRest⟩ hPoint
    exact scan?_plain_of_take_eq hDigits hNonempty hRest hHead hNoPoint hScan (by omega)

end Numeral
end Reckon
