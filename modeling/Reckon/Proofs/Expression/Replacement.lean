import Reckon.Proofs.Expression.Boundaries
import Reckon.Proofs.Expression.Progress

/-! # Another ending for a text

What was derived before some offset of a text is derived when another text stands behind that offset,
unless the new text lets the last numeral or word go on.
-/
namespace Reckon.Expression
set_option autoImplicit false
open Text (isBlank)
open Relation (ReflTransGen)

/-! ## What is left of the text -/

namespace Cursor

theorem Ahead.suffix {c c' : Cursor} (h : c.Ahead c') : c'.rest <:+ c.rest := by
  obtain ⟨n, -, rfl⟩ := h
  exact List.drop_suffix n c.rest

theorem Token.ahead_skipBlanks {c c' : Cursor} {token : List Char} (h : c.Token token c') :
    c.skipBlanks.Ahead c' := by
  rw [← h.eq_advance]
  refine ahead_advance ?_
  rw [h.1, List.length_append]
  exact Nat.le_add_right _ _

theorem Token.ahead {c c' : Cursor} {token : List Char} (h : c.Token token c') : c.Ahead c' :=
  c.ahead_skipBlanks.trans h.ahead_skipBlanks

theorem ahead_of_tokens {c c' : Cursor} (h : ReflTransGen Next c c') : c.Ahead c' := by
  induction h with
  | refl => exact c.ahead_refl
  | tail _ hNext ih =>
    obtain ⟨token, -, hToken⟩ := hNext
    exact ih.trans hToken.ahead

theorem Signs.ahead {c c' : Cursor} {odd : Bool} (h : c.Signs odd c') : c.Ahead c' :=
  ahead_of_tokens h.tokens

end Cursor

theorem Derives.ahead {level : Level} {c c' : Cursor} {t : Tree} (h : Derives level c t c') :
    c.Ahead c' := Cursor.ahead_of_tokens h.tokens.to_reflTransGen

theorem Arguments.ahead {c c' : Cursor} {ts : List Tree} (h : Arguments c ts c') : c.Ahead c' :=
  Cursor.ahead_of_tokens h.tokens

theorem Cursor.Token.suffix {c c' : Cursor} {token : List Char} (h : c.Token token c') :
    c'.rest <:+ c.rest := h.ahead.suffix

theorem Cursor.Signs.suffix {c c' : Cursor} {odd : Bool} (h : c.Signs odd c') : c'.rest <:+ c.rest :=
  h.ahead.suffix

theorem Derives.suffix {level : Level} {c c' : Cursor} {t : Tree} (h : Derives level c t c') :
    c'.rest <:+ c.rest := h.ahead.suffix

theorem Arguments.suffix {c c' : Cursor} {ts : List Tree} (h : Arguments c ts c') : c'.rest <:+ c.rest :=
  h.ahead.suffix

/-! ## The new ending -/

/-- The old ending of the text begins behind blanks, and so does the new one. It begins as the old one
    does, or with a character that does not go on with a word. -/
structure Replaces (old new : List Char) : Prop where
  blank : ∀ next ∈ new.head?, isBlank next = false
  word : new.head? = old.head? ∨ ∀ next ∈ new.head?, next.isAlpha = false ∧ next ≠ '('
  old : ∀ next ∈ old.head?, isBlank next = false

/-- The cursor in the text that ends with `new` where it ended with `old`. -/
def Cursor.replace (old new : List Char) (c : Cursor) : Cursor :=
  ⟨c.position, c.rest.take (c.rest.length - old.length) ++ new⟩

/-- No numeral goes on at the cursor. -/
def Cursor.Past (c : Cursor) : Prop := ∀ next ∈ c.rest.head?, Numeral.continues next = false

theorem continues_of_isBlank {next : Char} (h : isBlank next = true) : Numeral.continues next = false := by
  refine Numeral.continues_eq_false_iff.mpr ⟨?_, ?_, ?_, ?_⟩
  · rw [Bool.eq_false_iff]
    intro hDigit
    have hRange := Char.isDigit_iff_toNat.mp hDigit
    have hLow : 48 ≤ next.toNat := hRange.1
    have hHigh : next.toNat ≤ 57 := hRange.2
    simp [isBlank] at h
    omega
  all_goals
    rintro rfl
    exact absurd h (by decide)

namespace Cursor

variable {old new : List Char} {c c' : Cursor}

theorem replace_append (position : Nat) (l : List Char) :
    replace old new ⟨position, l ++ old⟩ = ⟨position, l ++ new⟩ := by
  simp [replace]

theorem position_replace (old new : List Char) (c : Cursor) :
    (c.replace old new).position = c.position := rfl

theorem takeWhile_append_of_head {p : Char → Bool} {rest : List Char} (l : List Char)
    (h : ∀ next ∈ rest.head?, p next = false) :
    (l ++ rest).takeWhile p = l.takeWhile p ∧ (l ++ rest).dropWhile p = l.dropWhile p ++ rest := by
  induction l with
  | nil =>
    rw [List.nil_append]
    cases rest with
    | nil => exact ⟨rfl, rfl⟩
    | cons next rest => simp [h next rfl]
  | cons next l ih =>
    cases hNext : p next with
    | true => simp [hNext, ih]
    | false => simp [hNext]

theorem skipBlanks_replace (h : Replaces old new) (hOld : old <:+ c.rest) :
    (c.replace old new).skipBlanks = c.skipBlanks.replace old new ∧ old <:+ c.skipBlanks.rest := by
  obtain ⟨position, rest⟩ := c
  obtain ⟨l, rfl⟩ := hOld
  obtain ⟨hTake, hDrop⟩ := takeWhile_append_of_head l h.old
  obtain ⟨hTake', hDrop'⟩ := takeWhile_append_of_head l h.blank
  simp only [replace_append, skipBlanks, hTake, hDrop, hTake', hDrop']
  exact ⟨trivial, List.suffix_append _ _⟩

theorem position_skipBlanks_replace (h : Replaces old new) (hOld : old <:+ c.rest) :
    (c.replace old new).skipBlanks.position = c.skipBlanks.position := by
  rw [(skipBlanks_replace h hOld).1, position_replace]

theorem Token.replace {token : List Char} (h : Replaces old new) (hToken : c.Token token c')
    (hOld : old <:+ c'.rest) : (c.replace old new).Token token (c'.replace old new) := by
  obtain ⟨hSkip, -⟩ := skipBlanks_replace h (hOld.trans hToken.suffix)
  obtain ⟨position, rest⟩ := c'
  obtain ⟨l, rfl⟩ := hOld
  obtain ⟨hRest, hPosition⟩ := hToken
  have hHere : c.skipBlanks = ⟨c.skipBlanks.position, (token ++ l) ++ old⟩ := by
    rw [List.append_assoc, ← hRest]
  rw [Token, hSkip, hHere, replace_append, replace_append]
  exact ⟨List.append_assoc _ _ _, hPosition⟩

/-- The next character stays, unless a new ending begins at the cursor that does not go on with a word. -/
theorem head_replace (h : Replaces old new) (hOld : old <:+ c.rest) :
    (c.replace old new).rest.head? = c.rest.head? ∨
      ∀ next ∈ (c.replace old new).rest.head?, next.isAlpha = false ∧ next ≠ '(' := by
  obtain ⟨position, rest⟩ := c
  obtain ⟨l, rfl⟩ := hOld
  rw [replace_append]
  cases l with
  | nil => exact h.word
  | cons next l => exact .inl rfl

theorem Word.replace {word : String} (h : Replaces old new) (hWord : c.Word word c')
    (hOld : old <:+ c'.rest) : (c.replace old new).Word word (c'.replace old new) := by
  refine ⟨hWord.token.replace h hOld, hWord.nonempty, hWord.letters, ?_⟩
  rcases head_replace h hOld with hSame | hOther
  · rw [hSame]
    exact hWord.longest
  · exact fun next hNext => (hOther next hNext).1

theorem Signs.replace {odd : Bool} (h : Replaces old new) (hSigns : c.Signs odd c')
    (hOld : old <:+ c'.rest) : (c.replace old new).Signs odd (c'.replace old new) := by
  induction hSigns with
  | none c => exact .none _
  | minus hSign hMore ih => exact .minus (hSign.replace h (hOld.trans hMore.suffix)) (ih hOld)

theorem head_skipBlanks_of_token {token : List Char} {first : Char} (h : c.Token (first :: token) c') :
    ∀ next ∈ c.rest.head?, isBlank next = true ∨ next = first := by
  obtain ⟨position, rest⟩ := c
  intro next hNext
  obtain ⟨more, rfl⟩ := List.head?_eq_some_iff.mp hNext
  cases hBlank : isBlank next with
  | true => exact .inl rfl
  | false =>
    have hRest := h.1
    rw [skipBlanks_of_head (by simp [hBlank])] at hRest
    exact .inr (List.cons.inj hRest).1

theorem Token.past {token : List Char} {first : Char} (hToken : c.Token (first :: token) c')
    (hFirst : Numeral.continues first = false) : c.Past := by
  intro next hNext
  rcases head_skipBlanks_of_token hToken next hNext with hBlank | rfl
  · exact continues_of_isBlank hBlank
  · exact hFirst

theorem past_of_skipBlanks (h : c.skipBlanks.rest = []) : c.Past := by
  obtain ⟨position, rest⟩ := c
  intro next hNext
  obtain ⟨more, rfl⟩ := List.head?_eq_some_iff.mp hNext
  cases hBlank : isBlank next with
  | true => exact continues_of_isBlank hBlank
  | false =>
    rw [skipBlanks_of_head (by simp [hBlank])] at h
    cases h

end Cursor

theorem past_of_operator {c c' : Cursor} {op : Operator} (h : c.Token op.token c') : c.Past := by
  cases op <;> exact h.past (by decide)

/-! ## Derivations before the new ending -/

variable {old new : List Char}

theorem head_replace_ne_bracket (h : Replaces old new) {c : Cursor} (hOld : old <:+ c.rest)
    (hBare : c.skipBlanks.rest.head? ≠ some '(') :
    (c.replace old new).skipBlanks.rest.head? ≠ some '(' := by
  obtain ⟨hSkip, hOld'⟩ := Cursor.skipBlanks_replace h hOld
  rw [hSkip]
  rcases Cursor.head_replace h hOld' with hSame | hOther
  · rwa [hSame]
  · exact fun hOpen => (hOther '(' hOpen).2 rfl

mutual
theorem Derives.replace (h : Replaces old new) : ∀ {level : Level} {c c' : Cursor} {t : Tree},
    Derives level c t c' → old <:+ c'.rest → (c'.replace old new).Past →
      Derives level (c.replace old new) t (c'.replace old new)
  | _, c, c', _, .literal (n := n) hLongest hToken, hOld, hPast => by
    have hToken' := hToken.replace h hOld
    refine @Derives.literal _ (c'.replace old new) n ?_ hToken'
    rw [hToken'.1]
    exact Numeral.longest_text_append hLongest.1 hPast
  | _, _, _, _, .name hWord hBare, hOld, _ => by
    have hName := Derives.name (hWord.replace h hOld) (head_replace_ne_bracket h hOld hBare)
    rwa [Cursor.position_skipBlanks_replace h (hOld.trans hWord.token.suffix),
      Cursor.position_skipBlanks_replace h hOld] at hName
  | _, _, _, _, .call hWord hOpen hFirst hMore hClose, hOld, _ => by
    have hOld₄ := hOld.trans hClose.suffix
    have hOld₃ := hOld₄.trans hMore.suffix
    have hOld₁ := (hOld₃.trans hFirst.suffix).trans hOpen.suffix
    have hClose' := hClose.replace h hOld
    obtain ⟨hMore', hPast₃⟩ := hMore.replace h hOld₄ (hClose'.past (by decide))
    have hCall := Derives.call (hWord.replace h hOld₁) (hOpen.replace h (hOld₃.trans hFirst.suffix))
      (hFirst.replace h hOld₃ hPast₃) hMore' hClose'
    rwa [Cursor.position_skipBlanks_replace h (hOld₁.trans hWord.token.suffix),
      Cursor.position_skipBlanks_replace h hOld₁] at hCall
  | _, _, _, _, .group (b := b) hOpen hInner hClose, hOld, _ => by
    have hOld₂ := hOld.trans hClose.suffix
    have hClose' := hClose.replace h hOld
    have hPast₂ := hClose'.past (by cases b <;> decide)
    exact .group (hOpen.replace h (hOld₂.trans hInner.suffix)) (hInner.replace h hOld₂ hPast₂) hClose'
  | _, _, _, _, .operand negated hOperand, hOld, hPast => .operand negated (hOperand.replace h hOld hPast)
  | _, _, _, _, .factorial hOperand hSign, hOld, _ => by
    have hSign' := hSign.replace h hOld
    exact .factorial (hOperand.replace h (hOld.trans hSign.suffix) (hSign'.past (by decide))) hSign'
  | _, _, _, _, .percent hOperand hSign, hOld, _ => by
    have hSign' := hSign.replace h hOld
    exact .percent (hOperand.replace h (hOld.trans hSign.suffix) (hSign'.past (by decide))) hSign'
  | _, _, _, _, .factor hSigns hOperand, hOld, hPast => by
    have hFactor := Derives.factor (hSigns.replace h (hOld.trans hOperand.suffix))
      (hOperand.replace h hOld hPast)
    rwa [Cursor.position_skipBlanks_replace h hOld] at hFactor
  | _, _, _, _, .base hFactor, hOld, hPast => .base (hFactor.replace h hOld hPast)
  | _, _, _, _, .power hBase hSign hExponent, hOld, hPast => by
    have hOld₂ := hOld.trans hExponent.suffix
    have hSign' := hSign.replace h hOld₂
    have hPower := Derives.power (hBase.replace h (hOld₂.trans hSign.suffix) (hSign'.past (by decide)))
      hSign' (hExponent.replace h hOld hPast)
    rwa [Cursor.position_skipBlanks_replace h hOld] at hPower
  | _, _, _, _, .single hPower, hOld, hPast => .single (hPower.replace h hOld hPast)
  | _, _, _, _, .product hLeft hOperator hSign hRight, hOld, hPast => by
    have hOld₂ := hOld.trans hRight.suffix
    have hSign' := hSign.replace h hOld₂
    have hProduct := Derives.product
      (hLeft.replace h (hOld₂.trans hSign.suffix) (past_of_operator hSign')) hOperator hSign'
      (hRight.replace h hOld hPast)
    rwa [Cursor.position_skipBlanks_replace h hOld] at hProduct
  | _, _, _, _, .summand hProduct, hOld, hPast => .summand (hProduct.replace h hOld hPast)
  | _, _, _, _, .sum hLeft hOperator hSign hRight, hOld, hPast => by
    have hOld₂ := hOld.trans hRight.suffix
    have hSign' := hSign.replace h hOld₂
    have hSum := Derives.sum
      (hLeft.replace h (hOld₂.trans hSign.suffix) (past_of_operator hSign')) hOperator hSign'
      (hRight.replace h hOld hPast)
    rwa [Cursor.position_skipBlanks_replace h hOld] at hSum

theorem Arguments.replace (h : Replaces old new) : ∀ {c c' : Cursor} {ts : List Tree},
    Arguments c ts c' → old <:+ c'.rest → (c'.replace old new).Past →
      Arguments (c.replace old new) ts (c'.replace old new) ∧ (c.replace old new).Past
  | _, _, _, .none _, _, hPast => ⟨.none _, hPast⟩
  | _, _, _, .comma hComma hNext hMore, hOld, hPast => by
    have hOld₂ := hOld.trans hMore.suffix
    obtain ⟨hMore', hPast₂⟩ := hMore.replace h hOld hPast
    have hComma' := hComma.replace h (hOld₂.trans hNext.suffix)
    exact ⟨.comma hComma' (hNext.replace h hOld₂ hPast₂) hMore', hComma'.past (by decide)⟩
end

end Reckon.Expression
