import Reckon.Proofs.Numeral.Longest

/-! # Where a numeral has to end

Numerals are written with few characters. Before any other character the longest numeral is the one of the
text up to there.
-/
namespace Reckon
set_option autoImplicit false

/-- The characters that numerals are written with. -/
def Numeral.writes (c : Char) : Bool := continues c || c == '+' || c == '-'

theorem Exponent.Proper.writes {e : Exponent} (h : e.Proper) : ∀ c ∈ e.text, Numeral.writes c = true := by
  intro c hMember
  rw [Exponent.text, List.mem_cons, List.mem_append] at hMember
  rcases hMember with rfl | hSign | hDigit
  · rcases h.mark with hMark | hMark <;> rw [hMark] <;> decide
  · rcases h.sign with hNone | hPlus | hMinus
    · rw [hNone] at hSign
      cases hSign
    · rw [hPlus] at hSign
      cases List.mem_singleton.mp hSign
      decide
    · rw [hMinus] at hSign
      cases List.mem_singleton.mp hSign
      decide
  · simp [Numeral.writes, Numeral.continues, h.digits c hDigit]

namespace Numeral

variable {n : Numeral} {l s : List Char}

theorem Proper.writes (h : n.Proper) : ∀ c ∈ n.text, Numeral.writes c = true := by
  obtain ⟨whole, fraction, exponent⟩ := n
  have hDigits {digits : List Char} (h : ∀ d ∈ digits, d.isDigit = true) :
      ∀ c ∈ digits, Numeral.writes c = true := fun c hMember => by
    simp [Numeral.writes, continues, h c hMember]
  intro c hMember
  simp only [text, List.mem_append] at hMember
  rcases hMember with (hWhole | hFraction) | hExponent
  · exact hDigits h.whole c hWhole
  · cases fraction with
    | none => cases hFraction
    | some digits =>
      rcases List.mem_cons.mp hFraction with rfl | hDigit
      · decide
      · exact hDigits h.fraction c hDigit
  · cases exponent with
    | none => cases hExponent
    | some e => exact (h.exponent e rfl).writes c hExponent

theorem Proper.prefix_append_iff (h : n.Proper) (hHead : ∀ next ∈ s.head?, Numeral.writes next = false) :
    n.text <+: l ++ s ↔ n.text <+: l := by
  constructor
  · intro hPrefix
    rcases List.prefix_or_prefix_of_prefix hPrefix (List.prefix_append l s) with hShort | ⟨more, hMore⟩
    · exact hShort
    · cases more with
      | nil =>
        rw [List.append_nil] at hMore
        exact hMore ▸ List.prefix_rfl
      | cons next more =>
        rw [← hMore, List.prefix_append_right_inj] at hPrefix
        obtain ⟨rest, hRest⟩ := hPrefix
        have hWrites := h.writes next (by rw [← hMore]; simp)
        rw [hHead next (by rw [← hRest]; rfl)] at hWrites
        cases hWrites
  · exact fun hPrefix => hPrefix.trans (List.prefix_append l s)

theorem Longest.of_append (h : n.Longest (l ++ s)) (hPrefix : n.text <+: l) : n.Longest l :=
  ⟨h.1, hPrefix, fun m hProper hText => h.2.2 m hProper (hText.trans (List.prefix_append l s))⟩

theorem longest_append_iff (hHead : ∀ next ∈ s.head?, Numeral.writes next = false) :
    n.Longest (l ++ s) ↔ n.Longest l := by
  constructor
  · intro h
    exact h.of_append ((h.1.prefix_append_iff hHead).mp h.2.1)
  · rintro ⟨hProper, hText, hMost⟩
    refine ⟨hProper, hText.trans (List.prefix_append l s), fun m hProper' hText' => ?_⟩
    exact hMost m hProper' ((hProper'.prefix_append_iff hHead).mp hText')

theorem scan?_eq_none_of_append (h : scan? (l ++ s) = none) : scan? l = none :=
  scan?_eq_none_iff.mpr fun m hProper hText =>
    scan?_eq_none_iff.mp h m hProper (hText.trans (List.prefix_append l s))

/-- What stands behind the last character of a numeral is left. -/
theorem scan?_append (hHead : ∀ next ∈ s.head?, Numeral.writes next = false) :
    scan? (l ++ s) = (scan? l).map fun found => (found.1, found.2 ++ s) := by
  cases hScan : scan? l with
  | none =>
    refine scan?_eq_none_iff.mpr fun m hProper hText => ?_
    exact scan?_eq_none_iff.mp hScan m hProper ((hProper.prefix_append_iff hHead).mp hText)
  | some found =>
    obtain ⟨n, rest⟩ := found
    obtain ⟨hLongest, hText⟩ := scan?_eq_some_iff.mp hScan
    refine scan?_eq_some_iff.mpr ⟨(longest_append_iff hHead).mpr hLongest, ?_⟩
    rw [hText, List.append_assoc]

end Numeral
end Reckon
