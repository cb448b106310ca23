import Reckon.Proofs.Expression.Stops

/-! # How many levels a text can open

On every way down there are no more levels open than the text before it opens by brackets and powers,
less the brackets that it closes again. Operators of a chain, commas, signs and suffixes open none.
-/
namespace Reckon.Expression
set_option autoImplicit false
open Text (isBlank)

/-! ## Weights -/

/-- What a character adds to the levels that are open. -/
def weight : Char → Int
  | '(' | '[' | '{' | '^' => 1
  | ')' | ']' | '}' => -1
  | _ => 0

@[simp] theorem weight_opener (b : Bracket) : weight b.opener = 1 := by cases b <;> rfl

@[simp] theorem weight_closer (b : Bracket) : weight b.closer = -1 := by cases b <;> rfl

theorem weight_le_one (next : Char) : weight next ≤ 1 := by
  unfold weight
  split <;> decide

theorem weight_of_not {p : Char → Bool} {next : Char} (h : p next = true)
    (hOpen : p '(' = false ∧ p '[' = false ∧ p '{' = false ∧ p '^' = false)
    (hClose : p ')' = false ∧ p ']' = false ∧ p '}' = false) : weight next = 0 := by
  unfold weight
  split <;> simp_all

theorem weight_of_isBlank {next : Char} (h : isBlank next = true) : weight next = 0 :=
  weight_of_not h (by decide) (by decide)

theorem weight_of_isAlpha {next : Char} (h : next.isAlpha = true) : weight next = 0 :=
  weight_of_not h (by decide) (by decide)

theorem weight_of_isDigit {next : Char} (h : next.isDigit = true) : weight next = 0 :=
  weight_of_not h (by decide) (by decide)

/-! ## Texts -/

/-- The brackets and powers that a text opens, less the brackets that it closes. -/
def balance (text : List Char) : Int := (text.map weight).sum

@[simp] theorem balance_nil : balance [] = 0 := rfl

@[simp] theorem balance_cons (next : Char) (text : List Char) :
    balance (next :: text) = weight next + balance text := by simp [balance]

@[simp] theorem balance_append (text more : List Char) :
    balance (text ++ more) = balance text + balance more := by simp [balance]

theorem balance_of_forall {text : List Char} (h : ∀ next ∈ text, weight next = 0) : balance text = 0 := by
  induction text with
  | nil => rfl
  | cons next text ih =>
    rw [List.forall_mem_cons] at h
    rw [balance_cons, h.1, ih h.2, Int.add_zero]

theorem balance_le_length (text : List Char) : balance text ≤ text.length := by
  induction text with
  | nil => exact Int.le_refl 0
  | cons next text ih =>
    have hWeight := weight_le_one next
    rw [balance_cons, List.length_cons]
    omega

theorem balance_digits {digits : List Char} (h : ∀ d ∈ digits, d.isDigit = true) : balance digits = 0 :=
  balance_of_forall fun d hd => weight_of_isDigit (h d hd)

theorem balance_exponent {e : Exponent} (h : e.Proper) : balance e.text = 0 := by
  have hMark : weight e.mark = 0 := by rcases h.mark with hMark | hMark <;> rw [hMark] <;> rfl
  have hSign : balance e.sign.toList = 0 := by rcases h.sign with hSign | hSign | hSign <;> rw [hSign] <;> rfl
  rw [Exponent.text, balance_cons, balance_append, hMark, hSign, balance_digits h.digits]
  rfl

theorem balance_numeral {n : Numeral} (h : n.Proper) : balance n.text = 0 := by
  obtain ⟨whole, fraction, exponent⟩ := n
  have hWhole : balance whole = 0 := balance_digits h.whole
  have hFraction : balance (fraction.getD []) = 0 := balance_digits h.fraction
  rw [Numeral.text, balance_append, balance_append]
  cases fraction with
  | none =>
    cases exponent with
    | none => simp [hWhole]
    | some e => simp [hWhole, balance_exponent (h.exponent e rfl)]
  | some digits =>
    cases exponent with
    | none => simpa [hWhole, weight] using hFraction
    | some e => simpa [hWhole, weight, balance_exponent (h.exponent e rfl)] using hFraction

/-! ## Cursors -/

namespace Cursor

variable {c c' : Cursor}

theorem balance_skipBlanks (c : Cursor) : balance c.skipBlanks.rest = balance c.rest := by
  obtain ⟨position, rest⟩ := c
  have hBlanks : balance (rest.takeWhile isBlank) = 0 :=
    balance_of_forall fun next hNext => weight_of_isBlank (List.mem_takeWhile_imp hNext)
  conv => rhs; rw [← List.takeWhile_append_dropWhile (p := isBlank) (l := rest), balance_append, hBlanks]
  exact (Int.zero_add _).symm

theorem Token.balance {token : List Char} (h : c.Token token c') :
    balance c.rest = Expression.balance token + Expression.balance c'.rest := by
  rw [← balance_skipBlanks, h.1, balance_append]

theorem Word.balance {word : String} (h : c.Word word c') :
    Expression.balance c.rest = Expression.balance c'.rest := by
  rw [h.token.balance, balance_of_forall fun l hl => weight_of_isAlpha (h.letters l hl), Int.zero_add]

theorem Signs.balance {odd : Bool} (h : c.Signs odd c') :
    Expression.balance c.rest = Expression.balance c'.rest := by
  induction h with
  | none => rfl
  | minus hSign _ ih =>
    rw [hSign.balance, ih]
    exact Int.zero_add _

end Cursor

theorem balance_operator {op : Operator} (h : op ≠ .pow) : balance op.token = 0 := by
  cases op with
  | pow => exact absurd rfl h
  | add | sub | mul | div | floorDiv => rfl

theorem Chains.balance {upper lower : Level} {operators : List Operator}
    {operator? : List Char → Option (Operator × Nat)} (hChains : Chains upper lower operators operator?)
    {c : Cursor} {op : Operator} {width : Nat} (hFound : operator? c.skipBlanks.rest = some (op, width)) :
    balance c.rest = balance (c.skipBlanks.advance width).rest := by
  obtain ⟨hMember, rfl, rest, hText⟩ := hChains.found hFound
  rw [(Cursor.token_advance hText).balance, balance_operator (hChains.ne_pow hMember), Int.zero_add]

/-! ## Derivations -/

mutual
/-- What is derived does not close more brackets than it opens. -/
theorem Derives.balance_le : ∀ {level : Level} {c c' : Cursor} {t : Tree}, Derives level c t c' →
    balance c'.rest ≤ balance c.rest
  | _, _, _, _, .literal hLongest hToken => by
    rw [hToken.balance, balance_numeral hLongest.1, Int.zero_add]
  | _, _, _, _, .name hWord _ => hWord.balance.ge
  | _, _, _, _, .call hWord hOpen hFirst hMore hClose => by
    have hFirst := hFirst.balance_le
    have hMore := hMore.balance_le
    rw [hClose.balance] at hMore
    rw [hWord.balance, hOpen.balance]
    simp only [balance_cons, balance_nil, weight] at hMore ⊢
    omega
  | _, _, _, _, .group hOpen hInner hClose => by
    have hInner := hInner.balance_le
    rw [hClose.balance] at hInner
    rw [hOpen.balance]
    simp only [balance_cons, balance_nil, weight_opener, weight_closer] at hInner ⊢
    omega
  | _, _, _, _, .operand _ h | _, _, _, _, .base h | _, _, _, _, .single h | _, _, _, _, .summand h =>
    h.balance_le
  | _, _, _, _, .factorial hOperand hSign | _, _, _, _, .percent hOperand hSign => by
    have hOperand := hOperand.balance_le
    rw [hSign.balance] at hOperand
    simpa [weight] using hOperand
  | _, _, _, _, .factor hSigns hOperand => by
    rw [hSigns.balance]
    exact hOperand.balance_le
  | _, _, _, _, .power hBase hSign hExponent => by
    have hBase := hBase.balance_le
    have hExponent := hExponent.balance_le
    rw [hSign.balance] at hBase
    simp only [balance_cons, balance_nil, weight] at hBase
    omega
  | _, _, _, _, .product hLeft hOperator hSign hRight => by
    have hLeft := hLeft.balance_le
    have hRight := hRight.balance_le
    rw [hSign.balance, balance_operator (chains_product.ne_pow hOperator)] at hLeft
    omega
  | _, _, _, _, .sum hLeft hOperator hSign hRight => by
    have hLeft := hLeft.balance_le
    have hRight := hRight.balance_le
    rw [hSign.balance, balance_operator (chains_sum.ne_pow hOperator)] at hLeft
    omega

theorem Arguments.balance_le : ∀ {c c' : Cursor} {ts : List Tree}, Arguments c ts c' →
    balance c'.rest ≤ balance c.rest
  | _, _, _, .none c => Int.le_refl _
  | _, _, _, .comma hComma hNext hMore => by
    have hNext := hNext.balance_le
    have hMore := hMore.balance_le
    have hToken : balance [','] = 0 := rfl
    rw [hComma.balance, hToken]
    omega
end

/-! ## Ways down -/

theorem Awaits.balance_le {A : Arithmetic} {level target : Level} {c o : Cursor} {k : Nat}
    (h : Awaits A level c k target o) : balance o.rest + k ≤ balance c.rest := by
  have hRound : balance ['('] = 1 := rfl
  have hPower : balance ['^'] = 1 := rfl
  have hComma : balance [','] = 0 := rfl
  induction h with
  | here level c => exact (Int.add_zero _).le
  | group hOpen _ ih =>
    rw [hOpen.balance, balance_cons, weight_opener, balance_nil]
    omega
  | argument hWord _ hOpen _ ih =>
    rw [hWord.balance, hOpen.balance, hRound]
    omega
  | nextArgument hWord _ hOpen hFirst hMore _ hNext _ ih =>
    have hFirst := hFirst.balance_le
    have hMore := hMore.balance_le
    rw [hNext.balance, hComma] at hMore
    rw [hWord.balance, hOpen.balance, hRound]
    omega
  | factor hSigns _ ih =>
    rw [hSigns.balance]
    exact ih
  | base _ ih | single _ ih | summand _ ih => exact ih
  | exponent hBase _ hSign _ ih =>
    have hBase := hBase.balance_le
    rw [hSign.balance, hPower] at hBase
    omega
  | product hLeft _ hFound _ ih =>
    have hLeft := hLeft.balance_le
    rw [chains_product.balance hFound] at hLeft
    omega
  | sum hLeft _ hFound _ ih =>
    have hLeft := hLeft.balance_le
    rw [chains_sum.balance hFound] at hLeft
    omega

/-- No more levels are open at an offset than the text before it opens. -/
theorem Awaits.le_balance {A : Arithmetic} {level target : Level} {text : List Char} {o : Cursor} {k : Nat}
    (h : Awaits A level ⟨0, text⟩ k target o) : (k : Int) ≤ balance (text.take o.position) := by
  have hBalance : balance o.rest + k ≤ balance text := h.balance_le
  rw [← h.ahead.take_append, balance_append] at hBalance
  omega

/-! ## Where levels are opened -/

/-- The last character before the second cursor opens a bracket or a power. -/
def Cursor.Opened (c c' : Cursor) : Prop :=
  ∃ before next, c.rest = before ++ next :: c'.rest ∧ weight next = 1

namespace Cursor

variable {c c₁ c₂ : Cursor}

theorem Token.opened {next : Char} (h : c.Token [next] c₁) (hNext : weight next = 1) : c.Opened c₁ := by
  have hBlanks := List.takeWhile_append_dropWhile (p := isBlank) (l := c.rest)
  refine ⟨c.rest.takeWhile isBlank, next, ?_, hNext⟩
  conv => lhs; rw [← hBlanks]
  exact congrArg _ h.1

theorem Opened.after (h : c₁.Opened c₂) (hAhead : c.Ahead c₁) : c.Opened c₂ := by
  obtain ⟨before, next, hRest, hNext⟩ := h
  obtain ⟨n, -, rfl⟩ := hAhead
  refine ⟨c.rest.take n ++ before, next, ?_, hNext⟩
  rw [List.append_assoc, ← hRest]
  exact (List.take_append_drop n c.rest).symm

/-- The character is the last one before the offset of the cursor. -/
theorem Opened.getLast {text : List Char} (h : Opened ⟨0, text⟩ c) (hAhead : Ahead ⟨0, text⟩ c) :
    ∃ next, (text.take c.position).getLast? = some next ∧ weight next = 1 := by
  obtain ⟨before, next, hRest, hNext⟩ := h
  refine ⟨next, ?_, hNext⟩
  have hText : text.take c.position ++ c.rest = before ++ [next] ++ c.rest := by
    rw [hAhead.take_append, List.append_assoc]
    exact hRest
  rw [List.append_cancel_right hText, List.getLast?_append]
  rfl

end Cursor

section Beginnings

variable {A : Arithmetic} {level inner : Level} {c c₁ c₂ o : Cursor} {k : Nat}

/-- An operand with so many levels open, at the cursor or before it, stands right behind the character
    that opens the last of them. -/
def Begins (A : Arithmetic) (level : Level) (c : Cursor) (k : Nat) (o : Cursor) : Prop :=
  ∃ o', Awaits A level c k .power o' ∧ o'.position ≤ o.position ∧ c.Opened o'

theorem Begins.after (h : Begins A inner c₁ k o) (hAhead : c.Ahead c₁)
    (hStep : ∀ o', Awaits A inner c₁ k .power o' → Awaits A level c k .power o') :
    Begins A level c k o := by
  obtain ⟨o', hAwaits, hPlace, hOpened⟩ := h
  exact ⟨o', hStep o' hAwaits, hPlace, hOpened.after hAhead⟩

theorem Begins.within (h : 0 < k → Begins A inner c₂ k o) (hFirst : Awaits A level c 1 .power c₁)
    (hOpened : c.Opened c₁) (hPlace : c₁.position ≤ o.position) (hAhead : c.Ahead c₂)
    (hStep : ∀ o', Awaits A inner c₂ k .power o' → Awaits A level c (k + 1) .power o') :
    Begins A level c (k + 1) o := by
  cases k with
  | zero => exact ⟨c₁, hFirst, hPlace, hOpened⟩
  | succ k =>
    obtain ⟨o', hAwaits, hBefore, hOpened'⟩ := h (Nat.succ_pos k)
    exact ⟨o', hStep o' hAwaits, hBefore, hOpened'.after hAhead⟩

theorem awaits_expression (A : Arithmetic) (c : Cursor) : Awaits A .expression c 0 .power c :=
  .summand (.single (.here .power c))

theorem Awaits.begins (h : Awaits A level c k .power o) (hDeep : 0 < k) : Begins A level c k o := by
  generalize hTarget : Level.power = target at h
  induction h with
  | here => exact absurd hDeep (Nat.lt_irrefl 0)
  | @group _ _ c₁ _ _ b hOpen hInner ih =>
    subst hTarget
    have hFirst := Awaits.group hOpen (awaits_expression A c₁)
    exact .within (fun hDeep => ih hDeep rfl) hFirst (hOpen.opened (weight_opener b)) hInner.ahead.position_le
      hOpen.ahead fun o' => .group hOpen
  | @argument _ _ c₁ c₂ _ _ word f hWord hFunction hOpen hInner ih =>
    subst hTarget
    have hFirst := Awaits.argument hWord hFunction hOpen (awaits_expression A c₂)
    have hOpened : Cursor.Opened _ c₂ := (hOpen.opened rfl).after hWord.token.ahead
    exact .within (fun hDeep => ih hDeep rfl) hFirst hOpened hInner.ahead.position_le
      (hWord.token.ahead.trans hOpen.ahead) fun o' => .argument hWord hFunction hOpen
  | @nextArgument _ _ c₁ c₂ _ _ _ _ _ word f _ _ _ hWord hFunction hOpen hNext hMore hValues hComma
      hInner ih =>
    subst hTarget
    have hFirst := Awaits.argument hWord hFunction hOpen (awaits_expression A c₂)
    have hOpened : Cursor.Opened _ c₂ := (hOpen.opened rfl).after hWord.token.ahead
    have hBetween := (hNext.ahead.trans hMore.ahead).trans hComma.ahead
    exact .within (fun hDeep => ih hDeep rfl) hFirst hOpened (hBetween.trans hInner.ahead).position_le
      ((hWord.token.ahead.trans hOpen.ahead).trans hBetween) fun o' =>
        .nextArgument hWord hFunction hOpen hNext hMore hValues hComma
  | factor hSigns _ ih =>
    exact (ih hDeep hTarget).after hSigns.ahead fun o' => .factor hSigns
  | @base _ c _ _ _ ih => exact (ih hDeep hTarget).after c.ahead_refl fun o' => .base
  | @single _ c _ _ _ ih => exact (ih hDeep hTarget).after c.ahead_refl fun o' => .single
  | @summand _ c _ _ _ ih => exact (ih hDeep hTarget).after c.ahead_refl fun o' => .summand
  | @exponent _ _ c₁ c₂ _ _ _ _ hBase hValue hSign hPower ih =>
    subst hTarget
    have hFirst := Awaits.exponent hBase hValue hSign (.here .power c₂)
    have hOpened : Cursor.Opened _ c₂ := (hSign.opened rfl).after hBase.ahead
    exact .within (fun hDeep => ih hDeep rfl) hFirst hOpened hPower.ahead.position_le
      (hBase.ahead.trans hSign.ahead) fun o' => .exponent hBase hValue hSign
  | product hLeft hValue hFound _ ih =>
    exact (ih hDeep hTarget).after (hLeft.ahead.trans (standing_productOperator?.ahead hFound)) fun o' =>
      .product hLeft hValue hFound
  | sum hLeft hValue hFound _ ih =>
    exact (ih hDeep hTarget).after (hLeft.ahead.trans (standing_sumOperator?.ahead hFound)) fun o' =>
      .sum hLeft hValue hFound

end Beginnings

end Reckon.Expression
