import Mathlib.Data.List.Basic
import Mathlib.Logic.Relation
import Reckon.Proofs.Expression.Tree
import Reckon.Proofs.Numeral.Longest

/-! # The grammar of expressions

Blanks may stand before each token and nowhere inside of one. A numeral is the longest one where it
stands, a word takes all letters that stand together, and a word before an opening bracket is a call.
Chains of operators lean to the left and powers to the right.
-/
namespace Reckon.Expression
set_option autoImplicit false
open Text (isBlank)
open Relation (TransGen ReflTransGen)

/-! ## Tokens -/

namespace Cursor

/-- The token stands behind the blanks at a cursor, and the second cursor behind the token. -/
def Token (c : Cursor) (token : List Char) (c' : Cursor) : Prop :=
  c.skipBlanks.rest = token ++ c'.rest ∧ c'.position = c.skipBlanks.position + token.length

structure Word (c : Cursor) (word : String) (c' : Cursor) : Prop where
  token : c.Token word.toList c'
  nonempty : word.toList ≠ []
  letters : ∀ l ∈ word.toList, l.isAlpha = true
  longest : ∀ next ∈ c'.rest.head?, next.isAlpha = false

/-- Minus signs one after the other; whether their number is odd. -/
inductive Signs : Cursor → Bool → Cursor → Prop
  | none (c : Cursor) : Signs c false c
  | minus {c c₁ c' : Cursor} {odd : Bool} (hSign : c.Token ['-'] c₁) (h : Signs c₁ odd c') :
      Signs c (!odd) c'

end Cursor

def Operator.token : Operator → List Char
  | .add => ['+']
  | .sub => ['-']
  | .mul => ['x']
  | .div => ['/']
  | .floorDiv => ['/', '/']
  | .pow => ['^']

def productOperators : List Operator := [.mul, .div, .floorDiv]

def sumOperators : List Operator := [.add, .sub]

/-! ## Rules -/

/-- A suffixed primary stands behind an even or an odd number of minus signs. -/
inductive Level
  | primary
  | suffixed (negated : Bool)
  | factor
  | power
  | product
  | expression

mutual
/-- The text between two cursors is read as a tree. A tree is reported behind its last token if that
    belongs to the operation, and otherwise behind the blanks that follow its last operand. -/
inductive Derives : Level → Cursor → Tree → Cursor → Prop
  | literal {c c' : Cursor} {n : Numeral} (hLongest : n.Longest c.skipBlanks.rest)
      (hToken : c.Token n.text c') :
      Derives .primary c (.literal n.value c'.position) c'
  | name {c c' : Cursor} {word : String} (hWord : c.Word word c')
      (hBare : c'.skipBlanks.rest.head? ≠ some '(') :
      Derives .primary c (.name word c.skipBlanks.position c'.skipBlanks.position) c'
  | call {c c₁ c₂ c₃ c₄ c' : Cursor} {word : String} {t : Tree} {ts : List Tree}
      (hWord : c.Word word c₁) (hOpen : c₁.Token ['('] c₂) (hFirst : Derives .expression c₂ t c₃)
      (hMore : Arguments c₃ ts c₄) (hClose : c₄.Token [')'] c') :
      Derives .primary c
        (.call word (t :: ts) c.skipBlanks.position c₁.skipBlanks.position c'.position) c'
  | group {c c₁ c₂ c' : Cursor} {b : Bracket} {t : Tree} (hOpen : c.Token [b.opener] c₁)
      (hInner : Derives .expression c₁ t c₂) (hClose : c₂.Token [b.closer] c') :
      Derives .primary c (.group b t) c'
  | operand {c c' : Cursor} {t : Tree} (negated : Bool) (h : Derives .primary c t c') :
      Derives (.suffixed negated) c t c'
  | factorial {c c₁ c' : Cursor} {t : Tree} {negated : Bool}
      (hOperand : Derives (.suffixed negated) c t c₁) (hSign : c₁.Token ['!'] c') :
      Derives (.suffixed negated) c (.factorial negated t c'.position) c'
  | percent {c c₁ c' : Cursor} {t : Tree} {negated : Bool}
      (hOperand : Derives (.suffixed negated) c t c₁) (hSign : c₁.Token ['%'] c') :
      Derives (.suffixed negated) c (.percent t c'.position) c'
  | factor {c c₁ c' : Cursor} {t : Tree} {odd : Bool} (hSigns : c.Signs odd c₁)
      (hOperand : Derives (.suffixed odd) c₁ t c') :
      Derives .factor c (t.signed odd c'.skipBlanks.position) c'
  | base {c c' : Cursor} {t : Tree} (h : Derives .factor c t c') : Derives .power c t c'
  | power {c c₁ c₂ c' : Cursor} {a b : Tree} (hBase : Derives .factor c a c₁)
      (hSign : c₁.Token ['^'] c₂) (hExponent : Derives .power c₂ b c') :
      Derives .power c (.binary .pow a b c'.skipBlanks.position) c'
  | single {c c' : Cursor} {t : Tree} (h : Derives .power c t c') : Derives .product c t c'
  | product {c c₁ c₂ c' : Cursor} {a b : Tree} {op : Operator} (hLeft : Derives .product c a c₁)
      (hOperator : op ∈ productOperators) (hSign : c₁.Token op.token c₂)
      (hRight : Derives .power c₂ b c') :
      Derives .product c (.binary op a b c'.skipBlanks.position) c'
  | summand {c c' : Cursor} {t : Tree} (h : Derives .product c t c') : Derives .expression c t c'
  | sum {c c₁ c₂ c' : Cursor} {a b : Tree} {op : Operator} (hLeft : Derives .expression c a c₁)
      (hOperator : op ∈ sumOperators) (hSign : c₁.Token op.token c₂)
      (hRight : Derives .product c₂ b c') :
      Derives .expression c (.binary op a b c'.skipBlanks.position) c'

/-- Further arguments of a call, each behind a comma. -/
inductive Arguments : Cursor → List Tree → Cursor → Prop
  | none (c : Cursor) : Arguments c [] c
  | comma {c c₁ c₂ c' : Cursor} {t : Tree} {ts : List Tree} (hComma : c.Token [','] c₁)
      (hNext : Derives .expression c₁ t c₂) (hMore : Arguments c₂ ts c') :
      Arguments c (t :: ts) c'
end

/-- The whole text, but for blanks at its end, is read as a tree. -/
def Parses (text : List Char) (t : Tree) : Prop :=
  ∃ c' : Cursor, Derives .expression ⟨0, text⟩ t c' ∧ c'.skipBlanks.rest = []

/-! ## Blanks -/

namespace Cursor

theorem skipBlanks_nil (position : Nat) : skipBlanks ⟨position, []⟩ = ⟨position, []⟩ := rfl

theorem skipBlanks_blank {position : Nat} {next : Char} {rest : List Char}
    (h : isBlank next = true) :
    skipBlanks ⟨position, next :: rest⟩ = skipBlanks ⟨position + 1, rest⟩ := by
  simp [skipBlanks, h]
  omega

theorem skipBlanks_of_head {c : Cursor} (h : ∀ next ∈ c.rest.head?, isBlank next = false) :
    c.skipBlanks = c := by
  obtain ⟨position, rest⟩ := c
  cases rest with
  | nil => rfl
  | cons next rest => simp [skipBlanks, h next rfl]

theorem head_skipBlanks (c : Cursor) : ∀ next ∈ c.skipBlanks.rest.head?, isBlank next = false := by
  intro next hNext
  have hHead := List.head?_dropWhile_not isBlank c.rest
  rw [show (c.rest.dropWhile isBlank).head? = some next from hNext] at hHead
  simpa using hHead

theorem skipBlanks_skipBlanks (c : Cursor) : c.skipBlanks.skipBlanks = c.skipBlanks :=
  skipBlanks_of_head (head_skipBlanks c)

theorem length_skipBlanks (c : Cursor) : c.skipBlanks.rest.length ≤ c.rest.length :=
  (List.dropWhile_sublist isBlank).length_le

/-! ## Tokens and what they leave -/

theorem Token.eq_advance {c c' : Cursor} {token : List Char} (h : c.Token token c') :
    c.skipBlanks.advance token.length = c' := by
  obtain ⟨hRest, hPosition⟩ := h
  simp [advance, hRest, ← hPosition]

theorem token_advance {c : Cursor} {token rest : List Char} (h : c.skipBlanks.rest = token ++ rest) :
    c.Token token (c.skipBlanks.advance token.length) := by
  simp [Token, advance, h]

theorem Token.length_le {c c' : Cursor} {token : List Char} (h : c.Token token c') :
    token.length + c'.rest.length ≤ c.rest.length := by
  have hLength := length_skipBlanks c
  rwa [h.1, List.length_append] at hLength

theorem Token.length_lt {c c' : Cursor} {token : List Char} (h : c.Token token c')
    (hNonempty : token ≠ []) : c'.rest.length < c.rest.length := by
  have hLength := h.length_le
  have hPositive := List.length_pos_iff.mpr hNonempty
  omega

end Cursor

/-! ## One token after the other -/

/-- What may stand as one token. -/
inductive IsToken : List Char → Prop
  | numeral {n : Numeral} (h : n.Proper) : IsToken n.text
  | word {word : List Char} (hNonempty : word ≠ []) (hLetters : ∀ l ∈ word, l.isAlpha = true) :
      IsToken word
  | operator (op : Operator) : IsToken op.token
  | opener (b : Bracket) : IsToken [b.opener]
  | closer (b : Bracket) : IsToken [b.closer]
  | mark {next : Char} (h : next ∈ ['!', '%', ',']) : IsToken [next]

theorem IsToken.nonempty {token : List Char} (h : IsToken token) : token ≠ [] := by
  cases h with
  | numeral h => exact List.length_pos_iff.mp (Numeral.length_pos_of_proper h)
  | word hNonempty _ => exact hNonempty
  | operator op => cases op <;> exact List.cons_ne_nil _ _
  | opener _ | closer _ | mark _ => exact List.cons_ne_nil _ _

namespace Cursor

/-- The second cursor stands behind the next token. -/
def Next (c c' : Cursor) : Prop := ∃ token, IsToken token ∧ c.Token token c'

theorem Next.length_lt {c c' : Cursor} (h : c.Next c') : c'.rest.length < c.rest.length := by
  obtain ⟨token, hIs, hToken⟩ := h
  exact hToken.length_lt hIs.nonempty

theorem Word.next {c c' : Cursor} {word : String} (h : c.Word word c') : c.Next c' :=
  ⟨word.toList, .word h.nonempty h.letters, h.token⟩

theorem Token.next {c c' : Cursor} {token : List Char} (h : c.Token token c') (hIs : IsToken token) :
    c.Next c' := ⟨token, hIs, h⟩

theorem Signs.tokens {c c' : Cursor} {odd : Bool} (h : c.Signs odd c') : ReflTransGen Next c c' := by
  induction h with
  | none c => exact .refl
  | minus hSign _ ih => exact .head (hSign.next (.operator .sub)) ih

end Cursor

mutual
/-- Whatever a rule reads is tokens, at least one of them. -/
theorem Derives.tokens : ∀ {level : Level} {c c' : Cursor} {t : Tree},
    Derives level c t c' → TransGen Cursor.Next c c'
  | _, _, _, _, .literal hLongest hToken => .single (hToken.next (.numeral hLongest.1))
  | _, _, _, _, .name hWord _ => .single hWord.next
  | _, _, _, _, .call hWord hOpen hFirst hMore hClose => by
    have hOpened := (TransGen.single hWord.next).tail (hOpen.next (.opener .round))
    have hInside := hFirst.tokens.trans_left hMore.tokens
    exact (hOpened.trans hInside).tail (hClose.next (.closer .round))
  | _, _, _, _, .group (b := b) hOpen hInner hClose =>
    (hInner.tokens.head (hOpen.next (.opener b))).tail (hClose.next (.closer b))
  | _, _, _, _, .operand _ h | _, _, _, _, .base h | _, _, _, _, .single h | _, _, _, _, .summand h =>
    h.tokens
  | _, _, _, _, .factorial hOperand hSign | _, _, _, _, .percent hOperand hSign =>
    hOperand.tokens.tail (hSign.next (.mark (by decide)))
  | _, _, _, _, .factor hSigns hOperand => .trans_right hSigns.tokens hOperand.tokens
  | _, _, _, _, .power hLeft hSign hRight =>
    (hLeft.tokens.tail (hSign.next (.operator .pow))).trans hRight.tokens
  | _, _, _, _, .product hLeft _ hSign hRight | _, _, _, _, .sum hLeft _ hSign hRight =>
    (hLeft.tokens.tail (hSign.next (.operator _))).trans hRight.tokens

theorem Arguments.tokens : ∀ {c c' : Cursor} {ts : List Tree},
    Arguments c ts c' → ReflTransGen Cursor.Next c c'
  | _, _, _, .none _ => .refl
  | _, _, _, .comma hComma hNext hMore => by
    have hArgument := hNext.tokens.head (hComma.next (.mark (by decide)))
    exact hArgument.to_reflTransGen.trans hMore.tokens
end

theorem Cursor.length_lt_of_tokens {c c' : Cursor} (h : TransGen Next c c') :
    c'.rest.length < c.rest.length := by
  induction h with
  | single hNext => exact hNext.length_lt
  | tail _ hNext ih => exact Nat.lt_trans hNext.length_lt ih

theorem Derives.length_lt {level : Level} {c c' : Cursor} {t : Tree} (h : Derives level c t c') :
    c'.rest.length < c.rest.length := Cursor.length_lt_of_tokens h.tokens

end Reckon.Expression
