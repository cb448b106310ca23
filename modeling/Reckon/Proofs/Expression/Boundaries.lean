import Reckon.Proofs.Expression.Grammar

/-! # Where expressions begin and end

The first character tells a sign, a primary and an operator apart, and the next character behind an
expression tells whether it goes on. Chains of either kind of operators obey the same laws.
-/
namespace Reckon.Expression
set_option autoImplicit false

/-! ## First characters -/

def startsPrimary (next : Char) : Bool :=
  next.isAlpha || next.isDigit || next == '.' || (Bracket.ofOpener? next).isSome

theorem Cursor.Word.head {c c' : Cursor} {word : String} (h : c.Word word c') :
    ∃ next rest, c.skipBlanks.rest = next :: rest ∧ next.isAlpha = true := by
  obtain ⟨next, rest, hWord⟩ := List.exists_cons_of_ne_nil h.nonempty
  refine ⟨next, rest ++ c'.rest, ?_, h.letters next (by rw [hWord]; exact List.mem_cons_self)⟩
  rw [h.token.1, hWord]
  rfl

theorem head_primary {c c' : Cursor} {t : Tree} (h : Derives .primary c t c') :
    ∃ next ∈ c.skipBlanks.rest.head?, startsPrimary next = true := by
  cases h with
  | literal hLongest hToken =>
    obtain ⟨next, rest, hText, hNext⟩ := Numeral.head_text_of_proper hLongest.1
    rw [hToken.1, hText]
    refine ⟨next, rfl, ?_⟩
    rcases hNext with hDigit | rfl
    · simp [startsPrimary, hDigit]
    · rfl
  | name hWord | call hWord =>
    obtain ⟨next, rest, hRest, hAlpha⟩ := hWord.head
    rw [hRest]
    exact ⟨next, rfl, by simp [startsPrimary, hAlpha]⟩
  | @group _ c₁ _ _ b _ hOpen =>
    rw [hOpen.1]
    refine ⟨b.opener, rfl, ?_⟩
    cases b <;> decide

theorem head_suffixed {negated : Bool} {c c' : Cursor} {t : Tree}
    (h : Derives (.suffixed negated) c t c') :
    ∃ next ∈ c.skipBlanks.rest.head?, startsPrimary next = true := by
  cases h with
  | operand _ h => exact head_primary h
  | factorial hOperand | percent hOperand => exact head_suffixed hOperand
termination_by t

theorem head_factor {c c' : Cursor} {t : Tree} (h : Derives .factor c t c') :
    ∃ next ∈ c.skipBlanks.rest.head?, next = '-' ∨ startsPrimary next = true := by
  cases h with
  | factor hSigns hOperand =>
    cases hSigns with
    | none =>
      obtain ⟨next, hNext, hStart⟩ := head_suffixed hOperand
      exact ⟨next, hNext, .inr hStart⟩
    | minus hSign =>
      rw [hSign.1]
      exact ⟨'-', rfl, .inl rfl⟩

/-- A division sign is no beginning of an operand, so the sign of the whole division is never two
    signs of division. -/
theorem head_ne_slash {c c' : Cursor} {t : Tree} (h : Derives .power c t c') :
    c.rest.head? ≠ some '/' := by
  intro hSlash
  have hBlank : c.skipBlanks = c := by
    apply Cursor.skipBlanks_of_head
    rw [hSlash]
    rintro next ⟨⟩
    rfl
  have hFactor : ∃ c₁ a, Derives .factor c a c₁ := by
    cases h with
    | base h => exact ⟨_, _, h⟩
    | power hBase => exact ⟨_, _, hBase⟩
  obtain ⟨c₁, a, hFactor⟩ := hFactor
  obtain ⟨next, hNext, hStart⟩ := head_factor hFactor
  rw [hBlank, hSlash] at hNext
  cases hNext
  revert hStart
  decide

/-! ## Last characters -/

/-- What an expression of the level may go on with. -/
def Level.extenders : Level → List Char
  | .primary | .suffixed _ => []
  | .factor => ['!', '%']
  | .power => ['!', '%', '^']
  | .product => ['!', '%', '^', 'x', '/']
  | .expression => ['!', '%', '^', 'x', '/', '+', '-']

/-- Nothing behind the blanks at the cursor extends an expression of the level. -/
def Ended (level : Level) (c : Cursor) : Prop :=
  ∀ next ∈ c.skipBlanks.rest.head?, next ∉ level.extenders

theorem Ended.of_head {level : Level} {c : Cursor} {next : Char} {rest : List Char}
    (hRest : c.skipBlanks.rest = next :: rest) (h : next ∉ level.extenders) : Ended level c := by
  intro other hOther
  rw [hRest] at hOther
  cases hOther
  exact h

theorem Ended.mono {lower upper : Level} {c : Cursor} (h : Ended upper c)
    (hExtenders : lower.extenders ⊆ upper.extenders) : Ended lower c :=
  fun next hNext hMember => h next hNext (hExtenders hMember)

theorem Ended.ne {level : Level} {c : Cursor} (h : Ended level c) {next : Char} {rest : List Char}
    (hRest : c.skipBlanks.rest = next :: rest) : next ∉ level.extenders :=
  h next (by rw [hRest]; rfl)

theorem ended_of_token {level : Level} {op : Operator} {c c' : Cursor} (h : c.Token op.token c')
    (hNext : ∀ next ∈ op.token.head?, next ∉ level.extenders) : Ended level c := by
  intro next hHead
  apply hNext
  rw [h.1] at hHead
  cases op <;> exact hHead

/-! ## Chains -/

/-- The upper level is made of chains of the lower one, and `operator?` finds their operators. -/
structure Chains (upper lower : Level) (operators : List Operator)
    (operator? : List Char → Option (Operator × Nat)) : Prop where
  operand {c c' : Cursor} {t : Tree} : Derives lower c t c' → Derives upper c t c'
  link {c c₁ c₂ c' : Cursor} {a b : Tree} {op : Operator} : Derives upper c a c₁ → op ∈ operators →
    c₁.Token op.token c₂ → Derives lower c₂ b c' →
      Derives upper c (.binary op a b c'.skipBlanks.position) c'
  cases {c c' : Cursor} {t : Tree} : Derives upper c t c' → Derives lower c t c' ∨
    ∃ c₁ c₂ a b op, t = .binary op a b c'.skipBlanks.position ∧ Derives upper c a c₁ ∧
      op ∈ operators ∧ c₁.Token op.token c₂ ∧ Derives lower c₂ b c'
  ne_pow {op : Operator} : op ∈ operators → op ≠ .pow
  found {text : List Char} {op : Operator} {width : Nat} : operator? text = some (op, width) →
    op ∈ operators ∧ width = op.token.length ∧ ∃ rest, text = op.token ++ rest
  finds {c c₁ c' : Cursor} {b : Tree} {op : Operator} : op ∈ operators → c.Token op.token c₁ →
    Derives lower c₁ b c' → operator? c.skipBlanks.rest = some (op, op.token.length)
  ended {c c' : Cursor} {op : Operator} : op ∈ operators → c.Token op.token c' → Ended lower c
  extenders : lower.extenders ⊆ upper.extenders
  done {c : Cursor} : Ended upper c → operator? c.skipBlanks.rest = none

theorem mem_productOperators {op : Operator} (h : op ∈ productOperators) :
    op = .mul ∨ op = .div ∨ op = .floorDiv := by
  simpa [productOperators] using h

theorem mem_sumOperators {op : Operator} (h : op ∈ sumOperators) : op = .add ∨ op = .sub := by
  simpa [sumOperators] using h

theorem productOperator?_div {rest : List Char} (h : rest.head? ≠ some '/') :
    productOperator? ('/' :: rest) = some (.div, 1) := by
  rw [productOperator?.eq_def]
  split <;> simp_all

theorem chains_product : Chains .product .power productOperators productOperator? where
  operand := .single
  link := .product
  cases h := by
    cases h with
    | single h => exact .inl h
    | product hLeft hOperator hSign hRight =>
      exact .inr ⟨_, _, _, _, _, rfl, hLeft, hOperator, hSign, hRight⟩
  ne_pow h := by rcases mem_productOperators h with rfl | rfl | rfl <;> decide
  found h := by
    rw [productOperator?.eq_def] at h
    split at h <;> cases h <;> exact ⟨by decide, rfl, _, rfl⟩
  finds h hSign hRight := by
    rw [hSign.1]
    rcases mem_productOperators h with rfl | rfl | rfl
    · rfl
    · exact productOperator?_div (head_ne_slash hRight)
    · rfl
  ended h hSign := by
    apply ended_of_token hSign
    intro next hNext
    rcases mem_productOperators h with rfl | rfl | rfl <;> cases hNext <;> decide
  extenders := by decide
  done h := by
    rw [productOperator?.eq_def]
    split
    · rename_i hRest
      exact absurd (h.ne hRest) (by decide)
    · rename_i hRest
      exact absurd (h.ne hRest) (by decide)
    · rename_i hRest
      exact absurd (h.ne hRest) (by decide)
    · rfl

theorem chains_sum : Chains .expression .product sumOperators sumOperator? where
  operand := .summand
  link := .sum
  cases h := by
    cases h with
    | summand h => exact .inl h
    | sum hLeft hOperator hSign hRight =>
      exact .inr ⟨_, _, _, _, _, rfl, hLeft, hOperator, hSign, hRight⟩
  ne_pow h := by rcases mem_sumOperators h with rfl | rfl <;> decide
  found h := by
    rw [sumOperator?.eq_def] at h
    split at h <;> cases h <;> exact ⟨by decide, rfl, _, rfl⟩
  finds h hSign _ := by
    rw [hSign.1]
    rcases mem_sumOperators h with rfl | rfl <;> rfl
  ended h hSign := by
    apply ended_of_token hSign
    intro next hNext
    rcases mem_sumOperators h with rfl | rfl <;> cases hNext <;> decide
  extenders := by decide
  done h := by
    rw [sumOperator?.eq_def]
    split
    · rename_i hRest
      exact absurd (h.ne hRest) (by decide)
    · rename_i hRest
      exact absurd (h.ne hRest) (by decide)
    · rfl

end Reckon.Expression
