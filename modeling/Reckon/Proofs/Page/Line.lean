import Mathlib.Data.List.TakeWhile
import Reckon.Session

/-! # Lines that are printed as they are

A text without controls that does not end in a blank and is no wider than the page comes out as one line.
-/
namespace Reckon
set_option autoImplicit false
open Text (isBlank columns splitOn)

/-! ## Stretches -/

theorem Text.splitOn_of_not {separator : Char → Bool} {text : List Char} (h : ∀ c ∈ text, separator c = false) :
    splitOn separator text = [text] := by
  induction text with
  | nil => rfl
  | cons c text ih =>
    rw [splitOn, h c List.mem_cons_self, if_neg Bool.false_ne_true,
      ih fun d hMem => h d (List.mem_cons_of_mem c hMem)]

namespace Page

/-- There are no controls of a terminal in the text. -/
def Visible (text : List Char) : Prop := ∀ c ∈ text, 32 ≤ c.toNat

/-- A text without controls that does not end in a blank. -/
structure Plain (text : List Char) : Prop where
  visible : Visible text
  last : ∀ c ∈ text.getLast?, isBlank c = false

variable {text : List Char} {limit : Nat}

theorem printed_of_visible (h : Visible text) : printed text = text := by
  refine List.filter_eq_self.mpr fun c hMem => ?_
  have hVisible := h c hMem
  simp only [isDropped, List.contains_cons, List.contains_nil, Bool.or_false, Bool.not_eq_true',
    Bool.or_eq_false_iff, beq_eq_false_iff_ne]
  omega

theorem expandTabs_of_visible (h : Visible text) (column : Nat) : expandTabs column text = text := by
  induction text generalizing column with
  | nil => rfl
  | cons c text ih =>
    have hTab : c ≠ '\t' := by
      rintro rfl
      exact absurd (h _ List.mem_cons_self) (by decide)
    rw [expandTabs, if_neg hTab, ih fun d hMem => h d (List.mem_cons_of_mem c hMem)]

/-! ## Words -/

/-- Blanks at the end are all that a text loses there. -/
theorem trimRight_append (text : List Char) :
    ∃ last : List Char, (∀ c ∈ last, isBlank c = true) ∧ trimRight text ++ last = text := by
  refine ⟨(text.reverse.takeWhile isBlank).reverse, fun c hMem => ?_, ?_⟩
  · exact List.mem_takeWhile_imp (List.mem_reverse.mp hMem)
  · rw [trimRight, ← List.reverse_append, List.takeWhile_append_dropWhile, List.reverse_reverse]

theorem columns_trimRight_le (text : List Char) : columns (trimRight text) ≤ columns text := by
  obtain ⟨last, -, hText⟩ := trimRight_append text
  have hColumns := columns_append (trimRight text) last
  rw [hText] at hColumns
  omega

theorem trimRight_of_last (h : ∀ c ∈ text.getLast?, isBlank c = false) : trimRight text = text := by
  rw [List.getLast?_eq_head?_reverse] at h
  rw [trimRight]
  cases hReverse : text.reverse with
  | nil => rw [List.reverse_eq_nil_iff.mp hReverse]; rfl
  | cons c rest =>
    have hLast : isBlank c = false := h c (by rw [hReverse]; rfl)
    rw [List.dropWhile_cons_of_neg (by simp [hLast]), ← hReverse, List.reverse_reverse]

/-- A word and what is left make up the text, and the word is not empty. -/
theorem eq_of_word? {word rest : List Char} (h : word? text = some (word, rest)) :
    text = word ++ rest ∧ word ≠ [] := by
  unfold word? at h
  dsimp only at h
  split at h
  · cases h
  · rename_i hBody
    cases h
    refine ⟨?_, ?_⟩
    · rw [List.append_assoc, List.append_assoc, List.takeWhile_append_dropWhile,
        List.takeWhile_append_dropWhile, List.takeWhile_append_dropWhile]
    · intro hEmpty
      rw [List.append_eq_nil_iff, List.append_eq_nil_iff] at hEmpty
      exact hBody (List.isEmpty_iff.mpr hEmpty.1.2)

/-- Where there is no word there are only blanks. -/
theorem blank_of_word? (h : word? text = none) : ∀ c ∈ text, isBlank c = true := by
  unfold word? at h
  dsimp only at h
  split at h
  · rename_i hBody
    intro c hMem
    rw [List.isEmpty_iff] at hBody
    have hNone : text.dropWhile isBlank = [] := by
      cases hRest : text.dropWhile isBlank with
      | nil => rfl
      | cons d rest =>
        have hHead : isBlank d = false := by
          have := List.head?_dropWhile_not isBlank text
          rw [hRest] at this
          simpa using this
        rw [hRest, List.takeWhile_cons_of_pos (by simp [hHead])] at hBody
        cases hBody
    exact List.dropWhile_eq_nil_iff.mp hNone c hMem
  · cases h

theorem flatten_firstWords {count : Nat} (hCount : text.length ≤ count)
    (hLast : ∀ c ∈ text.getLast?, isBlank c = false) : (firstWords count text).flatten = text := by
  induction count generalizing text with
  | zero =>
    rw [List.length_eq_zero_iff.mp (Nat.le_zero.mp hCount)]
    rfl
  | succ count ih =>
    rw [firstWords]
    cases hWord : word? text with
    | none =>
      cases hText : text.getLast? with
      | none => rw [List.getLast?_eq_none_iff.mp hText]; rfl
      | some c =>
        have hBlank := blank_of_word? hWord c (List.mem_of_getLast? hText)
        rw [hLast c hText] at hBlank
        cases hBlank
    | some found =>
      obtain ⟨word, rest⟩ := found
      obtain ⟨rfl, hWordSome⟩ := eq_of_word? hWord
      have hPositive := List.length_pos_iff.mpr hWordSome
      rw [List.length_append] at hCount
      dsimp only
      rw [List.flatten_cons, ih (by omega) fun c hMem => ?_]
      refine hLast c ?_
      rw [List.getLast?_append, hMem]
      rfl

/-! ## One line -/

theorem fill_of_fits {overflow : Overflow} {line : List Char} {words : List (List Char)}
    (h : columns (line ++ words.flatten) ≤ limit) : fill overflow limit line words = [line ++ words.flatten] := by
  induction words generalizing line with
  | nil => rw [fill, List.flatten_nil, List.append_nil]
  | cons word words ih =>
    rw [List.flatten_cons, ← List.append_assoc] at h ⊢
    have hWord : columns line + columns (trimRight word) ≤ limit := by
      have hTrimmed := columns_trimRight_le word
      rw [columns_append, columns_append] at h
      omega
    rw [fill, if_pos hWord, ih h]

theorem trimExcess_of_last (h : ∀ c ∈ text.getLast?, isBlank c = false) : trimExcess limit text = text := by
  rw [trimExcess, trimRight_of_last h, Nat.sub_self, Nat.zero_min, Nat.sub_zero, List.take_length]

theorem breakLine_of_plain {overflow : Overflow} (h : Plain text) (hFits : columns text ≤ limit) :
    breakLine overflow limit text = [text] := by
  have hWords := flatten_firstWords (Nat.le_refl text.length) h.last
  rw [breakLine, expandTabs_of_visible h.visible, words]
  cases hList : firstWords text.length text with
  | nil => rw [List.map_singleton, trimExcess_of_last h.last]
  | cons word more =>
    rw [hList] at hWords
    dsimp only
    rw [fill_of_fits (by rwa [List.nil_append, hWords]), List.map_singleton, List.nil_append, hWords,
      trimExcess_of_last h.last]

theorem wrap_of_plain (h : Plain text) (hFits : columns text ≤ limit) : wrap limit text = [text] := by
  have hOneLine : splitOn (· == '\n') text = [text] := by
    refine Text.splitOn_of_not fun c hMem => ?_
    rw [beq_eq_false_iff_ne]
    rintro rfl
    exact absurd (h.visible _ hMem) (by decide)
  rw [wrap, breakText, printed_of_visible h.visible, hOneLine, List.flatMap_singleton,
    breakLine_of_plain h hFits, List.map_singleton, shorten, if_pos hFits]

end Page

/-- A session prints a plain text that fits the terminal as a line of its own. -/
theorem Session.shown_of_plain {text : String} (h : Page.Plain text.toList)
    (hFits : columns text.toList ≤ terminalWidth) : shown text = text ++ "\n" := by
  rw [shown, Page.wrap_of_plain h hFits, Report.print, List.flatMap_singleton, String.ofList_append,
    String.ofList_toList]

end Reckon
