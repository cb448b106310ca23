import Reckon.Proofs.Expression.Soundness
import Reckon.Proofs.Numeral.Ending

/-! # The characters of expressions

Whatever a text means, it is written with blanks, letters, digits, a point, the signs of operators and brackets.
-/
namespace Reckon.Expression
set_option autoImplicit false
open Text (isBlank)
open Relation (ReflTransGen)

/-- Blanks and the characters that tokens are made of. -/
def isSyntax (next : Char) : Bool :=
  isBlank next || next.isAlpha || next.isDigit || "+-/^!%()[]\x7b\x7d,.".toList.contains next

theorem isSyntax_of_isBlank {next : Char} (h : isBlank next = true) : isSyntax next = true := by simp [isSyntax, h]

theorem isSyntax_of_isAlpha {next : Char} (h : next.isAlpha = true) : isSyntax next = true := by simp [isSyntax, h]

theorem isSyntax_of_isDigit {next : Char} (h : next.isDigit = true) : isSyntax next = true := by simp [isSyntax, h]

def Syntactic (text : List Char) : Prop := ∀ next ∈ text, isSyntax next = true

theorem Syntactic.append {text more : List Char} (h : Syntactic text) (hMore : Syntactic more) :
    Syntactic (text ++ more) := List.forall_mem_append.mpr ⟨h, hMore⟩

theorem syntactic_numeral {n : Numeral} (h : n.Proper) : Syntactic n.text := by
  intro next hMember
  have hWrites := h.writes next hMember
  simp only [Numeral.writes, Numeral.continues, Bool.or_eq_true, beq_iff_eq, or_assoc] at hWrites
  rcases hWrites with hDigit | rfl | rfl | rfl | rfl | rfl
  · exact isSyntax_of_isDigit hDigit
  · decide
  · decide
  · decide
  · decide
  · decide

theorem IsToken.syntactic {token : List Char} (h : IsToken token) : Syntactic token := by
  cases h with
  | numeral h => exact syntactic_numeral h
  | word _ hLetters => exact fun l hMember => isSyntax_of_isAlpha (hLetters l hMember)
  | operator op => cases op <;> simp [Syntactic, Operator.token, isSyntax]
  | opener b => cases b <;> simp [Syntactic, Bracket.opener, isSyntax]
  | closer b => cases b <;> simp [Syntactic, Bracket.closer, isSyntax]
  | mark h =>
    simp only [List.mem_cons, List.not_mem_nil, or_false] at h
    rcases h with rfl | rfl | rfl <;> simp [Syntactic, isSyntax]

/-! ## Between two cursors -/

namespace Cursor

variable {c c₁ c₂ : Cursor}

/-- The text between the cursors is made of tokens and blanks. -/
def Across (c c' : Cursor) : Prop := ∃ text, c.rest = text ++ c'.rest ∧ Syntactic text

theorem across_refl (c : Cursor) : c.Across c := ⟨[], rfl, nofun⟩

theorem Across.trans (h : c.Across c₁) (h' : c₁.Across c₂) : c.Across c₂ := by
  obtain ⟨text, hText, hSyntactic⟩ := h
  obtain ⟨more, hMore, hSyntactic'⟩ := h'
  exact ⟨text ++ more, by rw [hText, hMore, List.append_assoc], hSyntactic.append hSyntactic'⟩

theorem across_skipBlanks (c : Cursor) : c.Across c.skipBlanks :=
  ⟨c.rest.takeWhile isBlank, List.takeWhile_append_dropWhile.symm,
    fun _ hMember => isSyntax_of_isBlank (List.mem_takeWhile_imp hMember)⟩

theorem Token.across {token : List Char} (h : c.Token token c₁) (hToken : Syntactic token) : c.Across c₁ :=
  c.across_skipBlanks.trans ⟨token, h.1, hToken⟩

theorem across_of_tokens (h : ReflTransGen Next c c₁) : c.Across c₁ := by
  induction h with
  | refl => exact c.across_refl
  | tail _ hNext ih =>
    obtain ⟨token, hIs, hToken⟩ := hNext
    exact ih.trans (hToken.across hIs.syntactic)

end Cursor

theorem Parses.syntactic {text : List Char} {t : Tree} (h : Parses text t) : Syntactic text := by
  obtain ⟨c, hDerives, hEnd⟩ := h
  obtain ⟨read, hText, hSyntactic⟩ :=
    (Cursor.across_of_tokens hDerives.tokens.to_reflTransGen).trans c.across_skipBlanks
  rw [hEnd, List.append_nil] at hText
  obtain rfl : text = read := hText
  exact hSyntactic

end Reckon.Expression
