import Reckon.Numeral
import Mathlib.Data.List.TakeWhile

/-! # Scanning takes the longest numeral

A numeral is proper if its parts are what its text shows: digits around at most one point, at least
one of them, and an exponent that has digits. `scan?` finds the proper numeral that no other proper
numeral at the start of the text exceeds, and each text of a proper numeral has one reading.
-/
namespace Reckon
set_option autoImplicit false

/-- A mark, perhaps a sign, and at least one digit. -/
structure Exponent.Proper (e : Exponent) : Prop where
  mark : e.mark = 'e' ∨ e.mark = 'E'
  sign : e.sign = none ∨ e.sign = some '+' ∨ e.sign = some '-'
  digits : ∀ d ∈ e.digits, d.isDigit = true
  nonempty : e.digits ≠ []

/-- Digits around at most one point, at least one of them, and perhaps an exponent. -/
structure Numeral.Proper (n : Numeral) : Prop where
  whole : ∀ d ∈ n.whole, d.isDigit = true
  fraction : ∀ d ∈ n.fraction.getD [], d.isDigit = true
  nonempty : n.whole ≠ [] ∨ n.fraction.getD [] ≠ []
  exponent : ∀ e, n.exponent = some e → e.Proper

/-- Of all proper numerals at the start of a text, none is longer. -/
def Numeral.Longest (n : Numeral) (text : List Char) : Prop :=
  n.Proper ∧ n.text <+: text ∧ ∀ m : Numeral, m.Proper → m.text <+: text → m.text.length ≤ n.text.length

/-! ## Runs of characters -/

theorem takeWhile_run {p : Char → Bool} {run rest : List Char} (hRun : ∀ c ∈ run, p c = true)
    (hRest : ∀ c ∈ rest.head?, p c = false) : (run ++ rest).takeWhile p = run := by
  rw [List.takeWhile_append_of_pos hRun]
  cases rest with
  | nil => simp
  | cons c rest => simp [hRest c rfl]

theorem dropWhile_run {p : Char → Bool} {run rest : List Char} (hRun : ∀ c ∈ run, p c = true)
    (hRest : ∀ c ∈ rest.head?, p c = false) : (run ++ rest).dropWhile p = rest := by
  rw [List.dropWhile_append_of_pos hRun]
  cases rest with
  | nil => rfl
  | cons c rest => simp [hRest c rfl]

theorem dropWhile_eq_drop {α : Type} (p : α → Bool) (l : List α) :
    l.dropWhile p = l.drop (l.takeWhile p).length := by
  have hDrop := congrArg (List.drop (l.takeWhile p).length)
    (List.takeWhile_append_dropWhile (p := p) (l := l))
  rwa [List.drop_left] at hDrop

/-! ## Exponents -/

namespace Exponent

theorem takeSign_append {sign : Option Char} {digits rest : List Char}
    (hSign : sign = none ∨ sign = some '+' ∨ sign = some '-')
    (hDigits : ∀ d ∈ digits, d.isDigit = true) (hNonempty : digits ≠ []) :
    takeSign (sign.toList ++ (digits ++ rest)) = (sign, digits ++ rest) := by
  rcases hSign with rfl | rfl | rfl
  · cases digits with
    | nil => exact absurd rfl hNonempty
    | cons d digits =>
      have hDigit := hDigits d List.mem_cons_self
      have hPlus : d ≠ '+' := by rintro rfl; cases hDigit
      have hMinus : d ≠ '-' := by rintro rfl; cases hDigit
      simp only [Option.toList_none, List.nil_append, List.cons_append]
      unfold takeSign
      split
      · rename_i h; exact absurd (List.cons.inj h).1 hPlus
      · rename_i h; exact absurd (List.cons.inj h).1 hMinus
      · rfl
  · rfl
  · rfl

theorem scan?_text_append {e : Exponent} (h : e.Proper) (rest : List Char) :
    scan? (e.text ++ rest) =
      some ({ e with digits := e.digits ++ rest.takeWhile Char.isDigit }, rest.dropWhile Char.isDigit) := by
  have hSign : takeSign (e.sign.toList ++ (e.digits ++ rest)) = (e.sign, e.digits ++ rest) :=
    takeSign_append h.sign h.digits h.nonempty
  simp only [text, List.cons_append, List.append_assoc, scan?, if_pos h.mark, hSign,
    List.takeWhile_append_of_pos h.digits, List.dropWhile_append_of_pos h.digits]
  split
  · rename_i hNil
    exact absurd (List.append_eq_nil_iff.mp hNil).1 h.nonempty
  · rfl

theorem sign_takeSign (text : List Char) :
    (takeSign text).1 = none ∨ (takeSign text).1 = some '+' ∨ (takeSign text).1 = some '-' := by
  unfold takeSign
  split <;> simp

theorem proper_of_scan? {text rest : List Char} {e : Exponent} (h : scan? text = some (e, rest)) :
    e.Proper := by
  cases text with
  | nil => cases h
  | cons mark text =>
    simp only [scan?] at h
    split at h
    · rename_i hMark
      split at h
      · cases h
      · rename_i hNonempty
        cases h
        exact ⟨hMark, sign_takeSign text, fun d => List.mem_takeWhile_imp, hNonempty⟩
    · cases h

theorem scan?_of_head {text : List Char} (h : ∀ next ∈ text.head?, next ≠ 'e' ∧ next ≠ 'E') :
    scan? text = none := by
  cases text with
  | nil => rfl
  | cons next text => simp [scan?, h next rfl]

theorem head_text {e : Exponent} (h : e.Proper) :
    ∃ mark rest, e.text = mark :: rest ∧ mark.isDigit = false ∧ mark ≠ '.' := by
  refine ⟨e.mark, _, rfl, ?_⟩
  rcases h.mark with hMark | hMark <;> rw [hMark] <;> decide

end Exponent

/-! ## Numerals -/

namespace Numeral

theorem text_mk_some (whole digits : List Char) :
    (Numeral.mk whole (some digits) none).text = whole ++ '.' :: digits := by simp [text]

theorem text_mk_none (whole : List Char) : (Numeral.mk whole none none).text = whole := by simp [text]

theorem text_mk_exponent (whole : List Char) (fraction : Option (List Char)) (e : Exponent) :
    (Numeral.mk whole fraction (some e)).text = (Numeral.mk whole fraction none).text ++ e.text := by
  simp [text]

theorem scanExponent_text_append {e : Exponent} (h : e.Proper) (whole : List Char)
    (fraction : Option (List Char)) (rest : List Char) :
    scanExponent whole fraction (e.text ++ rest) =
      (⟨whole, fraction, some { e with digits := e.digits ++ rest.takeWhile Char.isDigit }⟩,
        rest.dropWhile Char.isDigit) := by
  rw [scanExponent, Exponent.scan?_text_append h]

theorem length_text_scanExponent (whole : List Char) (fraction : Option (List Char)) (text : List Char) :
    (Numeral.mk whole fraction none).text.length ≤ (scanExponent whole fraction text).1.text.length := by
  unfold scanExponent
  split
  · rw [text_mk_exponent, List.length_append]
    omega
  · rfl

theorem length_text_scanExponent_append {e : Exponent} (h : e.Proper) (whole : List Char)
    (fraction : Option (List Char)) (rest : List Char) :
    (Numeral.mk whole fraction (some e)).text.length ≤
      (scanExponent whole fraction (e.text ++ rest)).1.text.length := by
  rw [scanExponent_text_append h, text_mk_exponent, text_mk_exponent]
  simp only [Exponent.text, List.length_append, List.length_cons]
  omega

theorem proper_scanExponent {whole : List Char} {fraction : Option (List Char)} {text : List Char}
    (hWhole : ∀ d ∈ whole, d.isDigit = true) (hFraction : ∀ d ∈ fraction.getD [], d.isDigit = true)
    (hNonempty : whole ≠ [] ∨ fraction.getD [] ≠ []) :
    (scanExponent whole fraction text).1.Proper := by
  unfold scanExponent
  split
  · rename_i e rest hScan
    refine ⟨hWhole, hFraction, hNonempty, ?_⟩
    rintro e' ⟨⟩
    exact Exponent.proper_of_scan? hScan
  · refine ⟨hWhole, hFraction, hNonempty, ?_⟩
    rintro e' ⟨⟩

/-- A point behind digits, or at the start, is part of the numeral if a digit stands beside it. -/
theorem scan?_point {whole : List Char} (hWhole : ∀ d ∈ whole, d.isDigit = true) (text : List Char)
    (hNonempty : whole ≠ [] ∨ text.takeWhile Char.isDigit ≠ []) :
    scan? (whole ++ '.' :: text) =
      some (scanExponent whole (some (text.takeWhile Char.isDigit)) (text.dropWhile Char.isDigit)) := by
  have hPoint : ∀ c ∈ ('.' :: text).head?, c.isDigit = false := by
    rintro c ⟨⟩
    rfl
  simp only [scan?, takeWhile_run hWhole hPoint, dropWhile_run hWhole hPoint, Bool.and_eq_true,
    List.isEmpty_iff]
  rw [if_neg]
  rintro ⟨hNoWhole, hNoFraction⟩
  exact hNonempty.elim (· hNoWhole) (· hNoFraction)

theorem scan?_plain {whole : List Char} (hWhole : ∀ d ∈ whole, d.isDigit = true)
    (hNonempty : whole ≠ []) {text : List Char} (hDigit : ∀ c ∈ text.head?, c.isDigit = false)
    (hPoint : ∀ c ∈ text.head?, c ≠ '.') :
    scan? (whole ++ text) = some (scanExponent whole none text) := by
  simp only [scan?, takeWhile_run hWhole hDigit, dropWhile_run hWhole hDigit]
  split
  · exact absurd rfl (hPoint '.' rfl)
  · rw [if_neg (by simpa using hNonempty)]

theorem proper_of_scan? {text rest : List Char} {n : Numeral} (h : scan? text = some (n, rest)) :
    n.Proper := by
  simp only [scan?] at h
  split at h
  · rename_i after hPoint
    split at h
    · cases h
    · rename_i hNonempty
      have hPair := congrArg Prod.fst (Option.some.inj h)
      dsimp only at hPair
      rw [← hPair]
      apply proper_scanExponent (fun d => List.mem_takeWhile_imp) (fun d => List.mem_takeWhile_imp)
      simpa [List.isEmpty_iff, -not_and, Classical.not_and_iff_not_or_not] using hNonempty
  · split at h
    · cases h
    · rename_i hNonempty
      have hPair := congrArg Prod.fst (Option.some.inj h)
      dsimp only at hPair
      rw [← hPair]
      apply proper_scanExponent (fun d => List.mem_takeWhile_imp) (by simp)
      exact .inl (by simpa using hNonempty)

theorem exists_scan?_of_digits (text : List Char) (h : text.takeWhile Char.isDigit ≠ []) :
    ∃ found, scan? text = some found ∧
      (text.takeWhile Char.isDigit).length ≤ found.1.text.length := by
  simp only [scan?]
  split
  · rename_i after hPoint
    rw [if_neg (by simp [h])]
    refine ⟨_, rfl, le_trans ?_ (length_text_scanExponent _ _ _)⟩
    rw [text_mk_some, List.length_append]
    omega
  · rw [if_neg (by simpa using h)]
    refine ⟨_, rfl, le_trans ?_ (length_text_scanExponent _ _ _)⟩
    rw [text_mk_none]

theorem exists_scan?_of_point {whole digits : List Char} {exponent : Option Exponent}
    (h : (Numeral.mk whole (some digits) exponent).Proper) (rest : List Char) :
    ∃ found, scan? ((Numeral.mk whole (some digits) exponent).text ++ rest) = some found ∧
      (Numeral.mk whole (some digits) exponent).text.length ≤ found.1.text.length := by
  have hWhole : ∀ d ∈ whole, d.isDigit = true := h.whole
  have hDigits : ∀ d ∈ digits, d.isDigit = true := h.fraction
  cases exponent with
  | none =>
    rw [text_mk_some, List.append_assoc, List.cons_append, scan?_point hWhole]
    · refine ⟨_, rfl, le_trans ?_ (length_text_scanExponent _ _ _)⟩
      rw [text_mk_some, List.takeWhile_append_of_pos hDigits]
      simp only [List.length_append, List.length_cons]
      omega
    · rw [List.takeWhile_append_of_pos hDigits]
      exact h.nonempty.imp_right fun hNonempty hNil => hNonempty (List.append_eq_nil_iff.mp hNil).1
  | some e =>
    have hProper := h.exponent e rfl
    obtain ⟨mark, after, hText, hDigit, -⟩ := Exponent.head_text hProper
    have hMark : ∀ c ∈ (e.text ++ rest).head?, c.isDigit = false := by
      rw [hText]
      rintro c ⟨⟩
      exact hDigit
    rw [text_mk_exponent, text_mk_some]
    simp only [List.append_assoc, List.cons_append]
    rw [scan?_point hWhole, takeWhile_run hDigits hMark, dropWhile_run hDigits hMark]
    · have hLength := length_text_scanExponent_append hProper whole (some digits) rest
      rw [text_mk_exponent, text_mk_some] at hLength
      exact ⟨_, rfl, by simpa using hLength⟩
    · rw [takeWhile_run hDigits hMark]
      exact h.nonempty

theorem exists_scan?_of_plain {whole : List Char} {exponent : Option Exponent}
    (h : (Numeral.mk whole none exponent).Proper) (rest : List Char) :
    ∃ found, scan? ((Numeral.mk whole none exponent).text ++ rest) = some found ∧
      (Numeral.mk whole none exponent).text.length ≤ found.1.text.length := by
  have hWhole : ∀ d ∈ whole, d.isDigit = true := h.whole
  have hNonempty : whole ≠ [] := h.nonempty.resolve_right (by simp)
  cases exponent with
  | none =>
    rw [text_mk_none]
    -- What follows may go on with digits, a point or an exponent; only the length is known.
    obtain ⟨found, hScan, hLength⟩ := exists_scan?_of_digits (whole ++ rest) (by
      rw [List.takeWhile_append_of_pos hWhole]
      exact fun hNil => hNonempty (List.append_eq_nil_iff.mp hNil).1)
    refine ⟨found, hScan, le_trans ?_ hLength⟩
    rw [List.takeWhile_append_of_pos hWhole, List.length_append]
    omega
  | some e =>
    have hProper := h.exponent e rfl
    obtain ⟨mark, after, hText, hDigit, hPoint⟩ := Exponent.head_text hProper
    rw [text_mk_exponent, text_mk_none, List.append_assoc, scan?_plain hWhole hNonempty]
    · have hLength := length_text_scanExponent_append hProper whole none rest
      rw [text_mk_exponent, text_mk_none] at hLength
      exact ⟨_, rfl, hLength⟩
    · rw [hText]
      rintro c ⟨⟩
      exact hDigit
    · rw [hText]
      rintro c ⟨⟩
      exact hPoint

theorem exists_scan?_of_proper {m : Numeral} (h : m.Proper) (rest : List Char) :
    ∃ found, scan? (m.text ++ rest) = some found ∧ m.text.length ≤ found.1.text.length := by
  obtain ⟨whole, fraction, exponent⟩ := m
  cases fraction with
  | some digits => exact exists_scan?_of_point h rest
  | none => exact exists_scan?_of_plain h rest

/-- Nothing at the start of the rest belongs to the numeral: no digit, no point if it may still have one, and no
    exponent. -/
structure Apart (n : Numeral) (rest : List Char) : Prop where
  digit : ∀ next ∈ rest.head?, next.isDigit = false
  point : n.fraction = none → n.exponent = none → ∀ next ∈ rest.head?, next ≠ '.'
  exponent : n.exponent = none → Exponent.scan? rest = none

theorem scanExponent_of_apart {n : Numeral} {rest : List Char} (h : n.Proper) (hApart : n.Apart rest) :
    scanExponent n.whole n.fraction (n.exponent.elim [] Exponent.text ++ rest) = (n, rest) := by
  obtain ⟨whole, fraction, exponent⟩ := n
  cases exponent with
  | none => simp [scanExponent, hApart.exponent rfl]
  | some e =>
    have hScan := scanExponent_text_append (h.exponent e rfl) whole fraction rest
    have hRun : rest.takeWhile Char.isDigit = [] := @takeWhile_run _ [] rest (by simp) hApart.digit
    have hRun' : rest.dropWhile Char.isDigit = rest := @dropWhile_run _ [] rest (by simp) hApart.digit
    rwa [hRun, hRun', List.append_nil] at hScan

/-- A numeral is taken off a text if nothing behind it belongs to it. -/
theorem scan?_of_apart {n : Numeral} {rest : List Char} (h : n.Proper) (hApart : n.Apart rest) :
    scan? (n.text ++ rest) = some (n, rest) := by
  have hScanExponent := scanExponent_of_apart h hApart
  obtain ⟨whole, fraction, exponent⟩ := n
  have hWhole : ∀ d ∈ whole, d.isDigit = true := h.whole
  have hDigit : ∀ c ∈ (exponent.elim [] Exponent.text ++ rest).head?, c.isDigit = false := by
    cases exponent with
    | none => exact hApart.digit
    | some e =>
      obtain ⟨mark, after, hText, hMark, -⟩ := Exponent.head_text (h.exponent e rfl)
      simp only [Option.elim_some, hText]
      rintro c ⟨⟩
      exact hMark
  have hText : (Numeral.mk whole fraction exponent).text =
      (Numeral.mk whole fraction none).text ++ exponent.elim [] Exponent.text := by
    cases exponent with
    | none => simp
    | some e => exact text_mk_exponent whole fraction e
  rw [hText, List.append_assoc]
  cases fraction with
  | some digits =>
    have hDigits : ∀ d ∈ digits, d.isDigit = true := h.fraction
    have hRun := takeWhile_run hDigits hDigit
    rw [text_mk_some, List.append_assoc, List.cons_append, scan?_point hWhole, hRun,
      dropWhile_run hDigits hDigit, hScanExponent]
    rw [hRun]
    exact h.nonempty
  | none =>
    have hPoint : ∀ c ∈ (exponent.elim [] Exponent.text ++ rest).head?, c ≠ '.' := by
      cases exponent with
      | none => exact hApart.point rfl rfl
      | some e =>
        obtain ⟨mark, after, hText, -, hMark⟩ := Exponent.head_text (h.exponent e rfl)
        simp only [Option.elim_some, hText]
        rintro c ⟨⟩
        exact hMark
    rw [text_mk_none, scan?_plain hWhole (h.nonempty.resolve_right (by simp)) hDigit hPoint, hScanExponent]

/-- Whether a numeral may go on with the character behind its first digits. -/
def continues (next : Char) : Bool := next.isDigit || next == '.' || next == 'e' || next == 'E'

theorem continues_eq_false_iff {next : Char} :
    continues next = false ↔ next.isDigit = false ∧ next ≠ '.' ∧ next ≠ 'e' ∧ next ≠ 'E' := by
  simp [continues, and_assoc]

theorem scan?_text_append {n : Numeral} (h : n.Proper) {rest : List Char}
    (hRest : ∀ next ∈ rest.head?, continues next = false) : scan? (n.text ++ rest) = some (n, rest) := by
  refine scan?_of_apart h ⟨?_, ?_, ?_⟩
  · exact fun next hNext => (continues_eq_false_iff.mp (hRest next hNext)).1
  · exact fun _ _ next hNext => (continues_eq_false_iff.mp (hRest next hNext)).2.1
  · exact fun _ => Exponent.scan?_of_head fun next hNext => (continues_eq_false_iff.mp (hRest next hNext)).2.2

theorem scan?_text {n : Numeral} (h : n.Proper) : scan? n.text = some (n, []) := by
  have hScan := @scan?_text_append n h [] (by simp)
  rwa [List.append_nil] at hScan

theorem eq_of_text_eq {m n : Numeral} (hm : m.Proper) (hn : n.Proper) (h : m.text = n.text) : m = n := by
  have hScan := scan?_text hm
  rw [h, scan?_text hn] at hScan
  exact (Prod.ext_iff.mp (Option.some.inj hScan)).1.symm

theorem longest_of_scan? {text rest : List Char} {n : Numeral} (h : scan? text = some (n, rest)) :
    n.Longest text := by
  refine ⟨proper_of_scan? h, ⟨rest, (eq_of_scan? h).symm⟩, ?_⟩
  rintro m hProper ⟨after, rfl⟩
  obtain ⟨found, hScan, hLength⟩ := exists_scan?_of_proper hProper after
  rw [h] at hScan
  cases hScan
  exact hLength

theorem longest_text_append {n : Numeral} (h : n.Proper) {rest : List Char}
    (hRest : ∀ next ∈ rest.head?, continues next = false) : n.Longest (n.text ++ rest) :=
  longest_of_scan? (scan?_text_append h hRest)

theorem Longest.unique {text : List Char} {m n : Numeral} (hm : m.Longest text) (hn : n.Longest text) :
    m = n := by
  apply eq_of_text_eq hm.1 hn.1
  have hLength := le_antisymm (hn.2.2 m hm.1 hm.2.1) (hm.2.2 n hn.1 hn.2.1)
  exact (List.prefix_of_prefix_length_le hm.2.1 hn.2.1 hLength.le).eq_of_length hLength

/-- Scanning finds the longest proper numeral, and finds one wherever there is one. -/
theorem scan?_eq_some_iff {text rest : List Char} {n : Numeral} :
    scan? text = some (n, rest) ↔ n.Longest text ∧ text = n.text ++ rest := by
  constructor
  · intro h
    exact ⟨longest_of_scan? h, eq_of_scan? h⟩
  · rintro ⟨hLongest, hText⟩
    obtain ⟨⟨n', rest'⟩, hScan, -⟩ := exists_scan?_of_proper hLongest.1 rest
    rw [← hText] at hScan
    obtain rfl := (longest_of_scan? hScan).unique hLongest
    have hRest := (eq_of_scan? hScan).symm.trans hText
    rw [hScan, List.append_cancel_left hRest]

theorem scan?_eq_none_iff {text : List Char} :
    scan? text = none ↔ ∀ n : Numeral, n.Proper → ¬ n.text <+: text := by
  constructor
  · rintro h n hProper ⟨rest, rfl⟩
    obtain ⟨found, hScan, -⟩ := exists_scan?_of_proper hProper rest
    rw [h] at hScan
    cases hScan
  · intro h
    cases hScan : scan? text with
    | none => rfl
    | some pair => exact absurd (longest_of_scan? hScan).2.1 (h _ (longest_of_scan? hScan).1)

/-- No numeral begins where neither a digit stands nor a point before a digit. -/
theorem scan?_eq_none_iff_head {text : List Char} : scan? text = none ↔
    text.takeWhile Char.isDigit = [] ∧ ∀ rest, text = '.' :: rest → rest.takeWhile Char.isDigit = [] := by
  constructor
  · intro hScan
    refine ⟨?_, ?_⟩
    · by_contra hDigits
      obtain ⟨found, hFound, -⟩ := exists_scan?_of_digits text hDigits
      rw [hScan] at hFound
      cases hFound
    · rintro rest rfl
      by_contra hDigits
      have hPoint := @scan?_point [] (by simp) rest (.inr hDigits)
      rw [List.nil_append, hScan] at hPoint
      cases hPoint
  · rintro ⟨hDigit, hPoint⟩
    have hAll : text.dropWhile Char.isDigit = text := by
      rw [dropWhile_eq_drop, hDigit]
      rfl
    simp only [scan?, hDigit, hAll]
    split
    · rename_i rest
      simp [hPoint rest rfl]
    · simp

/-- Where a numeral might begin and none does, a point stands alone. -/
theorem lonePoint_of_scan?_eq_none {first : Char} {rest : List Char} (h : scan? (first :: rest) = none)
    (hFirst : first.isDigit = true ∨ first = '.') :
    first = '.' ∧ ∀ next ∈ rest.head?, next.isDigit = false := by
  obtain ⟨hDigits, hPoint⟩ := scan?_eq_none_iff_head.mp h
  rcases hFirst with hDigit | rfl
  · simp [hDigit] at hDigits
  · refine ⟨rfl, fun next hNext => ?_⟩
    obtain ⟨more, rfl⟩ := List.head?_eq_some_iff.mp hNext
    simpa using hPoint _ rfl

theorem head_text_of_proper {n : Numeral} (h : n.Proper) :
    ∃ next rest, n.text = next :: rest ∧ (next.isDigit = true ∨ next = '.') := by
  obtain ⟨whole, fraction, exponent⟩ := n
  cases whole with
  | cons next whole => exact ⟨next, _, rfl, .inl (h.whole next List.mem_cons_self)⟩
  | nil =>
    cases fraction with
    | none =>
      rcases h.nonempty with hEmpty | hEmpty
      · exact absurd rfl hEmpty
      · exact absurd rfl hEmpty
    | some digits => exact ⟨'.', _, rfl, .inr rfl⟩

theorem length_pos_of_proper {n : Numeral} (h : n.Proper) : 0 < n.text.length := by
  obtain ⟨next, rest, hText, -⟩ := head_text_of_proper h
  rw [hText]
  exact Nat.succ_pos _

end Numeral
end Reckon
